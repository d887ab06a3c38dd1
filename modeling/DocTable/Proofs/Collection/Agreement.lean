import DocTable.Proofs.Collection.Operation

/-!
# Counting, reading and deleting by scans

Over a table of texts a collection counts, reads and deletes in three loops of
its own, but all of them begin with the same scan. So they fail together, and
the number that is counted is that of the documents that are found. Deleting
goes by the exact text of a row. It takes equal rows at once and counts each of
them once, and it misses a row that is stored as bytes and only read as a text.
-/

namespace DocTable

variable {ι : Type} {ids : IdSource ι} {name : String} {rows : List Sql.Value}

open Session

/-- Whether a value is stored as a text. -/
def Sql.Value.isText : Sql.Value → Bool
  | .text _ => true
  | _ => false

/-- The document that a row holds is the one that it is decoded to. -/
theorem Sql.Value.document?_eq (row : Sql.Value) :
    row.document? = (StoredRow.ofValue row.asRead).toOption.map StoredRow.document := by
  rw [Sql.Value.document?]
  cases row.asRead with
  | text raw =>
      simp only [StoredRow.ofValue]
      cases Document.decode raw <;> rfl
  | null | integer _ | real _ | blob _ => rfl

theorem StoredRow.exists_ofValue_iff {row : Sql.Value} :
    (∃ stored, StoredRow.ofValue row.asRead = .ok stored) ↔ row.document? ≠ none := by
  rw [Sql.Value.document?_eq]
  cases StoredRow.ofValue row.asRead <;> simp [Except.toOption]

namespace RowTest

/-- Whether a row holds a document that passes the test. -/
def selects (test : RowTest) (row : Sql.Value) : Bool := row.document?.any test.accepts

/-- Whether a row that the test selects is found again by its text. -/
def deletes (test : RowTest) (row : Sql.Value) : Bool := row.isText && test.selects row

theorem document_chosen?_asRead (test : RowTest) (row : Sql.Value) :
    (test.chosen? row.asRead).map StoredRow.document = row.document?.filter test.accepts := by
  rw [chosen?, Sql.Value.document?_eq]
  cases StoredRow.ofValue row.asRead with
  | error error => rfl
  | ok stored =>
      cases accepted : test.accepts stored.document <;>
        simp [Except.toOption, Option.filter_some, accepted]

theorem isSome_chosen?_asRead (test : RowTest) (row : Sql.Value) :
    (test.chosen? row.asRead).isSome = test.selects row := by
  rw [← Option.isSome_map, document_chosen?_asRead, selects]
  cases row.document? with
  | none => rfl
  | some document => cases accepted : test.accepts document <;> simp [accepted]

end RowTest

/-- Where every row is readable, the rows that pass the test are read. -/
theorem Scan.mapM_handedOut_readable (test : RowTest) {values : List Sql.Value}
    (readable : ∀ value ∈ values, ∃ row, StoredRow.ofValue value = .ok row) :
    (handedOut test 0 none values).mapM id = .ok (values.filterMap test.chosen?) := by
  rw [handedOut_readable test 0 none readable, List.mapM_map]
  exact List.mapM_pure.trans (congrArg Except.ok (List.map_id _))

/-- The rows that a filter chooses in a table, as a scan reads them. -/
def Filter.scanned (filter : Filter) (name : String) (rows : List Sql.Value) :
    Except Error (List StoredRow) := do
  let test ← filter.rowTest
  if MemoryStore.isReadable name then
    (Scan.handedOut test 0 none (rows.map Sql.Value.asRead)).mapM id
  else throw (.execution .unreadable)

/-- All documents that a filter chooses. -/
def Collection.findAll (collection : Collection) (filter : Filter) : Session (List Document) := do
  let cursor ← collection.find filter {}
  cursor.allDocuments

/-- A search with no other option than a limit is planned as a scan if its filter can be read. -/
theorem FindPlan.build_scan (name : String) (filter : Filter) (limit : Option Nat) :
    ∃ statement, FindPlan.build .text name filter { limit } = (fun test =>
      ⟨⟨name, .select (.constant true) (some []) none none, statement⟩,
        some ⟨test, [], 0, limit.filter (0 < ·)⟩, none⟩) <$> filter.rowTest := by
  rw [build, Filter.choice_text]
  cases filter.rowTest with
  | error error => exact ⟨⟨"", []⟩, rfl⟩
  | ok test => exact ⟨_, rfl⟩

theorem Cursor.allDocuments_eq (cursor : Cursor) :
    cursor.allDocuments = List.map cursor.present <$> cursor.allRows := by
  have each (items : List (Item StoredRow)) :
      (items.map (·.map cursor.present)).mapM id = List.map cursor.present <$> items.mapM id := by
    induction items with
    | nil => rfl
    | cons item rest ih =>
        rw [List.map_cons, List.mapM_cons, List.mapM_cons, ih]
        cases item with
        | error error => rfl
        | ok row => cases rest.mapM id <;> rfl
  exact each cursor.drainRows

namespace Collection

/-- Documents are found, counted and deleted behind the same reading of rows. -/
theorem count_eq_snapshot (filter : Filter) :
    count ⟨name, .text⟩ filter = do
      let chosen ← snapshot ⟨name, .text⟩ filter none
      return chosen.length := by
  rcases FindPlan.build_scan name filter none with ⟨statement, built⟩
  rw [count, snapshot, find, Filter.callWhere?_eq, built]
  cases filter.rowTest <;> rfl

theorem findAll_eq_snapshot (filter : Filter) :
    findAll ⟨name, .text⟩ filter = do
      let chosen ← snapshot ⟨name, .text⟩ filter none
      return chosen.map StoredRow.document := by
  rcases FindPlan.build_scan name filter none with ⟨statement, built⟩
  rw [findAll, snapshot, find, built]
  cases filter.rowTest with
  | error error => rfl
  | ok test =>
      apply congrArg (Session.query _)
      funext rows
      change liftM (Cursor.allDocuments _) = liftM (Cursor.allRows _) >>= _
      rw [Cursor.allDocuments_eq]
      cases (Cursor.ofRows _ rows).allRows <;> rfl

theorem deleteMany_eq_snapshot (filter : Filter) :
    deleteMany ⟨name, .text⟩ filter =
      snapshot ⟨name, .text⟩ filter none >>= deleteRows ⟨name, .text⟩ := by
  rcases FindPlan.build_scan name filter none with ⟨statement, built⟩
  rw [deleteMany, snapshot, find, Filter.callWhere?_eq, built]
  cases filter.rowTest <;> rfl

section

variable {store : MemoryStore} (known : store.rows? name = some rows) (filter : Filter)
variable (source : ι)

include known

theorem run_snapshot : (snapshot ⟨name, .text⟩ filter none).run Engine.memory ids store source =
    (filter.scanned name rows, store, source) := by
  rcases FindPlan.build_scan name filter none with ⟨statement, built⟩
  rw [snapshot, find, built, Filter.scanned]
  cases filter.rowTest with
  | error error => rfl
  | ok test =>
      have answer := MemoryStore.query_all known statement
      change Session.run Engine.memory ids (.query _ fun answered =>
        liftM (Cursor.allRows _)) store source = _
      rw [Session.run]
      simp only [Engine.memory, answer]
      cases MemoryStore.isReadable name with
      | false => rfl
      | true =>
          simp only [if_true, Cursor.allRows, Cursor.ofRows, Option.map_some, List.map_map]
          rw [Cursor.drainRows_scan _ _ _ rfl]
          rfl

theorem run_findAll : (findAll ⟨name, .text⟩ filter).run Engine.memory ids store source =
    (List.map StoredRow.document <$> filter.scanned name rows, store, source) := by
  rw [findAll_eq_snapshot, run_bind, run_snapshot known]
  cases filter.scanned name rows <;> rfl

theorem run_count : (count ⟨name, .text⟩ filter).run Engine.memory ids store source =
    (List.length <$> filter.scanned name rows, store, source) := by
  rw [count_eq_snapshot, run_bind, run_snapshot known]
  cases filter.scanned name rows <;> rfl

end

end Collection

theorem Filter.scanned_ok {filter : Filter} {test : RowTest}
    (readable : MemoryStore.isReadable name = true) (tested : filter.rowTest = .ok test)
    (decoded : ∀ row ∈ rows, row.document? ≠ none) :
    filter.scanned name rows = .ok (rows.filterMap fun row => test.chosen? row.asRead) := by
  have each : ∀ value ∈ rows.map Sql.Value.asRead, ∃ row, StoredRow.ofValue value = .ok row := by
    intro value member
    rcases List.mem_map.1 member with ⟨row, inRows, rfl⟩
    exact StoredRow.exists_ofValue_iff.2 (decoded row inRows)
  rw [scanned, tested, readable]
  change (Scan.handedOut test 0 none _).mapM id = _
  rw [Scan.mapM_handedOut_readable test each, List.filterMap_map]
  rfl

/-- A scan that succeeds has read every row. -/
theorem Filter.scanned_inv {filter : Filter} {chosen : List StoredRow}
    (read : filter.scanned name rows = .ok chosen) :
    MemoryStore.isReadable name = true ∧ (∀ row ∈ rows, row.document? ≠ none) ∧
      ∃ test, filter.rowTest = .ok test ∧
        chosen = rows.filterMap fun row => test.chosen? row.asRead := by
  rw [scanned] at read
  cases tested : filter.rowTest with
  | error error =>
      rw [tested] at read
      cases read
  | ok test =>
      cases readable : MemoryStore.isReadable name with
      | false =>
          rw [tested, readable] at read
          cases read
      | true =>
          rw [tested, readable] at read
          rcases Scan.mapM_handedOut_all read with ⟨each, rfl⟩
          refine ⟨rfl, ?_, test, rfl, ?_⟩
          · intro row member
            exact StoredRow.exists_ofValue_iff.1 (each _ (List.mem_map_of_mem member))
          · rw [List.filterMap_map]
            rfl

theorem length_filterMap_chosen? (test : RowTest) (rows : List Sql.Value) :
    (rows.filterMap fun row => test.chosen? row.asRead).length = rows.countP test.selects := by
  rw [List.length_filterMap_eq_countP]
  exact List.countP_congr fun row _ => by rw [test.isSome_chosen?_asRead]

/-- The texts of the chosen rows are those of the rows that are selected and
stored as texts. -/
theorem isTextOf_chosen (test : RowTest) {row : Sql.Value} (member : row ∈ rows) :
    isTextOf (rows.filterMap fun row => test.chosen? row.asRead) row = test.deletes row := by
  rw [Bool.eq_iff_iff, isTextOf, List.any_eq_true, RowTest.deletes, Bool.and_eq_true]
  constructor
  · intro found
    rcases found with ⟨stored, inChosen, same⟩
    rcases List.mem_filterMap.1 inChosen with ⟨other, -, chosen⟩
    rcases RowTest.stored_of_chosen? chosen with ⟨-, decoded⟩
    have accepted := (RowTest.chosen?_eq_some_iff.1 chosen).2
    rw [beq_iff_eq] at same
    subst same
    refine ⟨rfl, ?_⟩
    rw [RowTest.selects, Sql.Value.document?_text.2 decoded]
    exact accepted
  · intro deleted
    rcases deleted with ⟨isText, selected⟩
    cases row with
    | text raw =>
        rw [← test.isSome_chosen?_asRead] at selected
        rcases Option.isSome_iff_exists.1 selected with ⟨stored, chosen⟩
        refine ⟨stored, List.mem_filterMap.2 ⟨_, member, chosen⟩, ?_⟩
        exact beq_iff_eq.2 (RowTest.stored_of_chosen? chosen).1
    | null | integer _ | real _ | blob _ => cases isText

/-- Deleting what a filter chooses takes the rows that are found again. -/
theorem Collection.run_deleteMany (ids : IdSource ι) {store : MemoryStore}
    (known : store.rows? name = some rows) {filter : Filter} {test : RowTest}
    (readable : MemoryStore.isReadable name = true)
    (tested : filter.rowTest = .ok test) (decoded : ∀ row ∈ rows, row.document? ≠ none)
    (source : ι) :
    ∃ last next, (deleteMany ⟨name, .text⟩ filter).run Engine.memory ids store source =
        (.ok (rows.countP test.deletes), last, next) ∧
      last.rows? name = some (rows.filter (!test.deletes ·)) := by
  let chosen := rows.filterMap fun row => test.chosen? row.asRead
  have deletion : Leaves ids name rows _ _ _ := leaves_deleteRows readable chosen
  rcases deletion store source known with ⟨_, last, next, _, run, after, rfl, rfl⟩
  have deleted : rows.countP (isTextOf chosen) = rows.countP test.deletes :=
    List.countP_congr fun row member => by rw [isTextOf_chosen test member]
  have left : rows.filter (!isTextOf chosen ·) = rows.filter (!test.deletes ·) :=
    List.filter_congr fun row member => by rw [isTextOf_chosen test member]
  rw [deleted] at run
  rw [left] at after
  refine ⟨last, next, ?_, after⟩
  rw [deleteMany_eq_snapshot, run_bind, run_snapshot known,
    Filter.scanned_ok readable tested decoded]
  exact run

/-! ## Agreement -/

/-- Every row that a test selects is stored as a text. -/
def RowTest.FindsAgain (test : RowTest) (rows : List Sql.Value) : Prop :=
  ∀ row ∈ rows, test.selects row = true → row.isText = true

namespace RowTest

variable {test : RowTest}

/-- What is deleted and what is selected behind it was selected before. -/
theorem countP_deletes_add (test : RowTest) (rows : List Sql.Value) :
    rows.countP test.deletes + (rows.filter (!test.deletes ·)).countP test.selects =
      rows.countP test.selects := by
  rw [countP_add_countP_filter]
  apply List.countP_congr
  intro row _
  simp [deletes]

/-- If every selected row is stored as a text, exactly the selected ones are deleted. -/
theorem FindsAgain.deletes_eq (findsAgain : test.FindsAgain rows) {row : Sql.Value}
    (member : row ∈ rows) : test.deletes row = test.selects row := by
  rw [deletes]
  cases selected : test.selects row with
  | false => rw [Bool.and_false]
  | true => rw [findsAgain row member selected, Bool.and_true]

theorem FindsAgain.filter_eq (findsAgain : test.FindsAgain rows) :
    rows.filter (!test.deletes ·) = rows.filter (!test.selects ·) :=
  List.filter_congr fun row member => by rw [findsAgain.deletes_eq member]

theorem FindsAgain.countP_filter (findsAgain : test.FindsAgain rows) :
    (rows.filter (!test.deletes ·)).countP test.selects = 0 := by
  rw [findsAgain.filter_eq, List.countP_eq_zero]
  intro row member
  simpa using (List.mem_filter.1 member).2

theorem countP_filter_pos (missed : ¬test.FindsAgain rows) :
    0 < (rows.filter (!test.deletes ·)).countP test.selects := by
  apply Nat.pos_of_ne_zero
  intro none
  apply missed
  intro row member selected
  cases isText : row.isText with
  | true => rfl
  | false =>
      have left : row ∈ rows.filter (!test.deletes ·) :=
        List.mem_filter.2 ⟨member, by simp [deletes, isText]⟩
      exact absurd selected (List.countP_eq_zero.1 none row left)

end RowTest

/-- Over every table of texts and for every filter, finding and counting read the
same documents or fail with the same error, and a row without a document is such
an error. Deleting fails with them and changes nothing then. If they succeed, it
removes the selected rows that are stored as texts and leaves the others as they
are and in order. So it removes what was counted, and nothing is counted behind
it, exactly if every selected row is stored as a text. -/
theorem Collection.scans_agree (ids : IdSource ι) (name : String) (store : MemoryStore)
    (source : ι) (known : store.rows? name = some rows) (filter : Filter) :
    ∃ found : Except Error (List Document),
      (findAll ⟨name, .text⟩ filter).run Engine.memory ids store source =
        (found, store, source) ∧
      (count ⟨name, .text⟩ filter).run Engine.memory ids store source =
        (List.length <$> found, store, source) ∧
      ((∃ row ∈ rows, row.document? = none) → ∃ error, found = .error error) ∧
      (∀ error, found = .error error →
        (deleteMany ⟨name, .text⟩ filter).run Engine.memory ids store source =
          (.error error, store, source)) ∧
      ∀ documents, found = .ok documents → ∃ test last next,
        filter.rowTest = .ok test ∧
        documents = rows.filterMap (·.document?.filter test.accepts) ∧
        (deleteMany ⟨name, .text⟩ filter).run Engine.memory ids store source =
          (.ok (rows.countP test.deletes), last, next) ∧
        last.rows? name = some (rows.filter (!test.deletes ·)) ∧
        (count ⟨name, .text⟩ filter).run Engine.memory ids last next =
          (.ok ((rows.filter (!test.deletes ·)).countP test.selects), last, next) ∧
        (test.FindsAgain rows → rows.countP test.deletes = documents.length ∧
          rows.filter (!test.deletes ·) = rows.filter (!test.selects ·) ∧
          (rows.filter (!test.deletes ·)).countP test.selects = 0) ∧
        (¬test.FindsAgain rows → rows.countP test.deletes < documents.length ∧
          0 < (rows.filter (!test.deletes ·)).countP test.selects) := by
  refine ⟨_, run_findAll known filter source, ?_, ?_, ?_, ?_⟩
  · rw [run_count known]
    cases filter.scanned name rows with
    | error error => rfl
    | ok chosen => exact congrArg (Except.ok ·, store, source) (List.length_map _).symm
  · intro undecoded
    rcases undecoded with ⟨row, member, none⟩
    cases read : filter.scanned name rows with
    | error error => exact ⟨error, rfl⟩
    | ok chosen => exact absurd none ((Filter.scanned_inv read).2.1 row member)
  · intro error failed
    rw [deleteMany_eq_snapshot, run_bind, run_snapshot known]
    cases read : filter.scanned name rows with
    | error own =>
        rw [read] at failed
        cases failed
        rfl
    | ok chosen =>
        rw [read] at failed
        cases failed
  · intro documents found
    cases read : filter.scanned name rows with
    | error own =>
        rw [read] at found
        cases found
    | ok chosen =>
        rw [read] at found
        cases found
        rcases Filter.scanned_inv read with ⟨readable, decoded, test, tested, rfl⟩
        rcases run_deleteMany ids known readable tested decoded source with
          ⟨last, next, run, after⟩
        refine ⟨test, last, next, tested, ?_, run, after, ?_, ?_, ?_⟩
        · rw [List.map_filterMap]
          exact congrArg (List.filterMap · rows) (funext test.document_chosen?_asRead)
        · have still : ∀ row ∈ rows.filter (!test.deletes ·), row.document? ≠ none :=
            fun row member => decoded row (List.mem_filter.1 member).1
          rw [run_count after, Filter.scanned_ok readable tested still]
          exact congrArg (Except.ok ·, last, next) (length_filterMap_chosen? test _)
        · intro findsAgain
          rw [List.length_map, length_filterMap_chosen?]
          exact ⟨List.countP_congr fun row member => by rw [findsAgain.deletes_eq member],
            findsAgain.filter_eq, findsAgain.countP_filter⟩
        · intro missed
          have added := test.countP_deletes_add rows
          have positive := RowTest.countP_filter_pos missed
          rw [List.length_map, length_filterMap_chosen?]
          exact ⟨by omega, positive⟩

/-- Two equal rows are counted once each, though one statement deletes both. -/
theorem Collection.scans_agree_of_duplicates :
    ∃ last next, (deleteMany ⟨"t", .text⟩ .all).run Engine.memory
        (fun used : Nat => ("id", used + 1))
        ⟨[⟨"t", [.text "\x7b\x7d", .text "\x7b\x7d"]⟩]⟩ 0 = (.ok 2, last, next) ∧
      last.rows? "t" = some [] := by
  let ids : IdSource Nat := fun used => ("id", used + 1)
  have known : MemoryStore.rows? ⟨[⟨"t", [.text "\x7b\x7d", .text "\x7b\x7d"]⟩]⟩ "t" =
    some [.text "\x7b\x7d", .text "\x7b\x7d"] := rfl
  have document : (Sql.Value.text "\x7b\x7d").document? = some ∅ := rfl
  rcases scans_agree ids "t" _ 0 known .all with ⟨found, finds, -, -, -, succeeds⟩
  have read : ∃ documents, found = .ok documents := by
    have scanned : (findAll ⟨"t", .text⟩ .all).run Engine.memory ids _ 0 = _ :=
      run_findAll known .all 0
    rw [Filter.scanned_ok rfl rfl (by simp [document])] at scanned
    exact ⟨_, congrArg Prod.fst (finds.symm.trans scanned)⟩
  rcases read with ⟨documents, read⟩
  rcases succeeds documents read with ⟨test, last, next, tested, -, deleted, after, -⟩
  have always : Filter.all.rowTest = .ok (.condition .always) := rfl
  rw [always] at tested
  cases tested
  have deletes : (RowTest.condition .always).deletes (.text "\x7b\x7d") = true := by
    rw [RowTest.deletes, RowTest.selects, document]
    rfl
  refine ⟨last, next, ?_, ?_⟩
  · simpa [deletes] using deleted
  · simpa [deletes] using after

/-- A row that is stored as bytes is counted and not deleted. -/
theorem Collection.bytes_left_behind :
    (count ⟨"t", .text⟩ .all).run Engine.memory (fun used : Nat => ("id", used + 1))
        ⟨[⟨"t", [.blob [0x7b, 0x7d]]⟩]⟩ 0 = (.ok 1, ⟨[⟨"t", [.blob [0x7b, 0x7d]]⟩]⟩, 0) ∧
      ∃ last next, (deleteMany ⟨"t", .text⟩ .all).run Engine.memory
          (fun used : Nat => ("id", used + 1)) ⟨[⟨"t", [.blob [0x7b, 0x7d]]⟩]⟩ 0 =
            (.ok 0, last, next) ∧ last.rows? "t" = some [.blob [0x7b, 0x7d]] := by
  let ids : IdSource Nat := fun used => ("id", used + 1)
  have known : MemoryStore.rows? ⟨[⟨"t", [.blob [0x7b, 0x7d]]⟩]⟩ "t" =
    some [.blob [0x7b, 0x7d]] := rfl
  have document : (Sql.Value.blob [0x7b, 0x7d]).document? = some ∅ := rfl
  have decoded : ∀ row ∈ [Sql.Value.blob [0x7b, 0x7d]], row.document? ≠ none := by
    simp [document]
  have tested : Filter.all.rowTest = .ok (.condition .always) := rfl
  constructor
  · rw [run_count known, Filter.scanned_ok rfl tested decoded]
    have counted := length_filterMap_chosen? (.condition .always) [.blob [0x7b, 0x7d]]
    rw [List.countP_singleton, RowTest.selects, document] at counted
    exact congrArg (Except.ok ·, _, 0) counted
  · rcases run_deleteMany ids known rfl tested decoded 0 with ⟨last, next, run, after⟩
    exact ⟨last, next, run, after⟩

end DocTable
