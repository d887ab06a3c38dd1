import DocTable.Proofs.Collection.Agreement
import DocTable.Proofs.Collection.Ledger

/-!
# Storing documents one after the other

The check of an id is a search, and it sees exactly the ids of the documents
that can be read. A document that is legible can be read once it is stored. So
storing a list of such documents appends those in front of the first one that is
refused. If every row of the table can be read, each of them is found by its id
afterwards, as it was stored.
-/

namespace DocTable

variable {ι : Type} {name : String}

namespace Document

variable {document : Document}

theorem legible_withId (legible : (Json.object document).Legible) (id : String) :
    (Json.object (document.withId id)).Legible := by
  rcases document with ⟨entries⟩
  have kept (entry : String × Json) (member : entry ∈ (Fields.erase ⟨entries⟩ idField).entries) :
      entry ∈ entries := (List.mem_filter.1 member).1
  constructor
  case proper => exact proper_withId legible.proper id
  case shallow =>
      have within := Json.depthEntries_le_iff.1 (Nat.le_refl (Json.depthEntries entries))
      have fewer : Json.depthEntries
          ((idField, .string id) :: (Fields.erase ⟨entries⟩ idField).entries) ≤
            Json.depthEntries entries :=
        Json.depthEntries_le_iff.2 (List.forall_mem_cons.2
          ⟨Nat.zero_le _, fun entry member => within entry (kept entry member)⟩)
      exact Nat.le_trans (Nat.succ_le_succ fewer) legible.shallow
  case exact =>
      intro double member
      rw [withId, Json.doubles, Json.mem_doublesOfEntries] at member
      rcases member with ⟨entry, inFront, inside⟩
      rcases List.mem_cons.1 inFront with rfl | inEntries
      · simp [Json.doubles] at inside
      · apply legible.exact
        rw [Json.doubles, Json.mem_doublesOfEntries]
        exact ⟨entry, kept entry inEntries, inside⟩

end Document

/-- The documents in a table that can be read. -/
def storedDocuments (rows : List Sql.Value) : List Document := rows.filterMap Sql.Value.document?

theorem storedDocuments_rows {documents : List Document}
    (legible : ∀ document ∈ documents, (Json.object document).Legible) :
    storedDocuments (documents.map Document.row) = documents := by
  have each : ∀ document ∈ documents, document.row.document? = some document :=
    fun document member => Document.document?_row_iff.2 (legible document member)
  rw [storedDocuments, List.filterMap_map]
  exact (List.filterMap_congr each).trans List.filterMap_some

/-- The ids of documents that carry one. -/
def carriedIds (documents : List Document) : List String := documents.filterMap Document.id?

namespace RowTest

/-- The documents of the chosen rows are those that can be read and pass the test. -/
theorem documents_chosen (test : RowTest) (rows : List Sql.Value) :
    (rows.filterMap fun row => test.chosen? row.asRead).map StoredRow.document =
      (storedDocuments rows).filter test.accepts := by
  rw [List.map_filterMap, storedDocuments, List.filter_filterMap]
  exact List.filterMap_congr fun row _ => test.document_chosen?_asRead row

/-- The test that a document carries an id. -/
def ofId (id : String) : RowTest := .condition (.compare Sql.idPath .eq (.string id))

theorem accepts_ofId (id : String) (document : Document) :
    (ofId id).accepts document = (document.id? == some id) := by
  rw [Bool.eq_iff_iff, beq_iff_eq]
  exact Document.holds_id_iff

theorem any_accepts_ofId (id : String) (documents : List Document) :
    documents.any (ofId id).accepts = decide (id ∈ carriedIds documents) := by
  rw [Bool.eq_iff_iff, List.any_eq_true, decide_eq_true_iff, carriedIds, List.mem_filterMap]
  simp only [accepts_ofId, beq_iff_eq]

end RowTest

theorem Cursor.head?_drainRows (cursor : Cursor) : cursor.drainRows.head? = cursor.nextRow.1 := by
  rcases step : cursor.nextRow with ⟨item, next⟩
  cases item with
  | none => rw [drainRows_of_none step, List.head?_nil]
  | some item => rw [drainRows_of_some step, List.head?_cons]

namespace Collection

section

variable {rows : List Sql.Value} {store : MemoryStore} (ids : IdSource ι)
variable (known : store.rows? name = some rows) (readable : MemoryStore.isReadable name = true)
variable (source : ι)

include known readable

/-- A search of a table of texts ends with a cursor over all rows. -/
theorem run_find {filter : Filter} {test : RowTest} (tested : filter.rowTest = .ok test)
    (limit : Option Nat) :
    (find ⟨name, .text⟩ filter { limit }).run Engine.memory ids store source =
      (.ok ⟨rows.map Sql.Value.asRead,
        some (Scan.start ⟨test, [], 0, limit.filter (0 < ·)⟩), none, false⟩, store, source) := by
  rcases FindPlan.build_scan name filter limit with ⟨statement, built⟩
  rw [find, built, tested]
  change Session.run Engine.memory ids (.query _ fun answered => pure (Cursor.ofRows _ answered))
    store source = _
  rw [Session.run]
  simp only [Engine.memory, MemoryStore.query_all known statement, readable, if_true,
    Cursor.ofRows, Option.map_some, List.map_map]
  rfl

/-- The check of an id sees the ids of the documents that can be read. -/
theorem run_isTaken (id : String) :
    (isTaken ⟨name, .text⟩ id).run Engine.memory ids store source =
      (.ok (decide (id ∈ carriedIds (storedDocuments rows))), store, source) := by
  have tested : Filter.rowTest (.declarative ⟨[(idField, .string id)]⟩) = .ok (.ofId id) := rfl
  have found : (!((storedDocuments rows).filter (RowTest.ofId id).accepts).isEmpty) =
      (storedDocuments rows).any (RowTest.ofId id).accepts := by
    rw [Bool.eq_iff_iff]
    simp [List.isEmpty_eq_false_iff]
  rw [isTaken, Session.run_bind, run_find ids known readable source tested none]
  change (Except.ok ((Cursor.drainRows ⟨rows.map Sql.Value.asRead,
    some (Scan.start ⟨.ofId id, [], 0, none⟩), none, false⟩).any (·.isOk)), store, source) = _
  rw [Cursor.drainRows_scan _ _ _ rfl]
  simp only [Scan.start]
  rw [Scan.any_handedOut_all, List.filterMap_map, ← List.isEmpty_map]
  change (Except.ok (!((rows.filterMap fun row => (RowTest.ofId id).chosen? row.asRead).map
    StoredRow.document).isEmpty), store, source) = _
  rw [RowTest.documents_chosen, found, RowTest.any_accepts_ofId]

/-- Where every row can be read, a search of one document returns the first that passes. -/
theorem run_findOne {filter : Filter} {test : RowTest} (tested : filter.rowTest = .ok test)
    (decoded : ∀ row ∈ rows, row.document? ≠ none) :
    (findOne ⟨name, .text⟩ filter {}).run Engine.memory ids store source =
      (.ok ((storedDocuments rows).find? test.accepts), store, source) := by
  have each : ∀ value ∈ rows.map Sql.Value.asRead, ∃ row, StoredRow.ofValue value = .ok row := by
    intro value member
    rcases List.mem_map.1 member with ⟨row, inRows, rfl⟩
    exact StoredRow.exists_ofValue_iff.2 (decoded row inRows)
  have first : (Cursor.advance ⟨rows.map Sql.Value.asRead,
        some (Scan.start ⟨test, [], 0, some 1⟩), none, false⟩).1 =
      ((storedDocuments rows).find? test.accepts).map .ok := by
    rw [← List.head?_filter, ← RowTest.documents_chosen, List.head?_map, Option.map_map]
    rw [Cursor.advance]
    simp only [← Cursor.head?_drainRows]
    rw [Cursor.drainRows_scan _ _ _ rfl]
    simp only [Scan.start]
    rw [Scan.handedOut_readable test 0 (some 1) each, List.head?_map, Scan.slice, List.drop_zero,
      List.head?_take, if_neg Nat.one_ne_zero, List.filterMap_map, Option.map_map]
    rfl
  rw [findOne, Session.run_bind, run_find ids known readable source tested (some 1)]
  have limited : (some 1 : Option Nat).filter (0 < ·) = some 1 := rfl
  simp only [limited, first]
  cases (storedDocuments rows).find? test.accepts <;> rfl

end

end Collection

/-- The id under which a document is to be stored, its own or a fresh one, and the source of ids
behind it. An own id that is no string is reported. -/
def Document.assignedId (ids : IdSource ι) (document : Document) (source : ι) :
    Except Json String × ι :=
  match document.get? idField with
  | some (.string id) => (.ok id, source)
  | some other => (.error other, source)
  | none => (.ok (ids source).1, (ids source).2)

namespace Collection

theorem run_stamp (ids : IdSource ι) {σ : Type} (engine : Engine σ) (document : Document)
    (state : σ) (source : ι) :
    (stamp document).run engine ids state source =
      match document.assignedId ids source with
      | (.ok id, next) => (.ok (id, document.withId id), state, next)
      | (.error other, next) => (.error (.compilation (.idNotString other)), state, next) := by
  unfold stamp Document.suppliedId? Document.assignedId
  cases document.get? idField with
  | none => rfl
  | some value => cases value <;> rfl

section

variable {rows : List Sql.Value} {store : MemoryStore} (ids : IdSource ι)
variable (known : store.rows? name = some rows) (readable : MemoryStore.isReadable name = true)

include known readable

/-- A document is stored unless its id is no string or stored already. -/
theorem run_insertOne (document : Document) (source : ι) :
    (insertOne ⟨name, .text⟩ document).run Engine.memory ids store source =
      match document.assignedId ids source with
      | (.error other, next) => (.error (.compilation (.idNotString other)), store, next)
      | (.ok id, next) =>
          if id ∈ carriedIds (storedDocuments rows) then
            (.error (.duplicateId name id), store, next)
          else (.ok id, store.setRows name (rows ++ [(document.withId id).row]), next) := by
  rw [insertOne, Session.run_bind, run_stamp]
  rcases document.assignedId ids source with ⟨assigned, next⟩
  cases assigned with
  | error other => rfl
  | ok id =>
      have stored : MemoryStore.affect rows (.insert (document.withId id).text) =
          .ok (1, rows ++ [(document.withId id).row]) := rfl
      simp only
      rw [Session.run_bind, run_isTaken ids known readable next id]
      by_cases taken : id ∈ carriedIds (storedDocuments rows)
      · simp only [taken]
        rfl
      · have accepted := run_execute ids known readable rfl stored (by simp) next
        simp only [taken]
        change Session.run Engine.memory ids (do
          let _ ← execute ⟨name, .text⟩ (.insert (document.withId id).text)
          return id) store next = _
        rw [Session.run_bind, accepted]
        rfl

end

end Collection

/-! ## Several documents -/

/-- The ids under which documents are to be stored one after the other. -/
def assignedIds (ids : IdSource ι) : List Document → ι → List (Except Json String)
  | [], _ => []
  | document :: rest, source =>
    let (assigned, next) := document.assignedId ids source
    assigned :: assignedIds ids rest next

/-- Why the document at a position is refused: its id is no string, or it is stored already or
assigned to an earlier document. -/
def refusal? (name : String) (stored : List String) (assigned : List (Except Json String))
    (position : Nat) : Option Error :=
  match assigned[position]? with
  | none => none
  | some (.error other) => some (.compilation (.idNotString other))
  | some (.ok id) =>
      if id ∈ stored ++ (assigned.take position).filterMap Except.toOption then
        some (.duplicateId name id)
      else none

/-- Behind a document that is stored, the others are refused for the reasons they had. -/
theorem refusal?_succ (stored : List String) (id : String) (rest : List (Except Json String))
    (position : Nat) :
    refusal? name stored (.ok id :: rest) (position + 1) =
      refusal? name (stored ++ [id]) rest position := by
  simp only [refusal?, List.getElem?_cons_succ, List.take_succ_cons]
  cases rest[position]? with
  | none => rfl
  | some next => cases next <;> simp [Except.toOption]

/-- The documents in front of the first one that is refused are stored in order under their ids,
behind the rows that were there. If none is refused, all are stored and the ids returned. -/
structure StoresPrefix (name : String) (before : List Sql.Value) (documents : List Document)
    (assigned : List (Except Json String)) (own : List String)
    (result : Except Error (List String)) (after : List Sql.Value) : Prop where
  bounded : own.length ≤ documents.length
  accepted : ∀ position < own.length,
    refusal? name (carriedIds (storedDocuments before)) assigned position = none
  stopped : own.length < documents.length →
    (refusal? name (carriedIds (storedDocuments before)) assigned own.length).isSome
  assigned_eq : assigned.take own.length = own.map .ok
  rows_eq : after = before ++ (List.zipWith Document.withId documents own).map Document.row
  result_eq : result =
    match refusal? name (carriedIds (storedDocuments before)) assigned own.length with
    | some error => .error error
    | none => .ok own

namespace StoresPrefix

variable {before after : List Sql.Value} {document : Document} {documents rest : List Document}
variable {assigned : List (Except Json String)} {own : List String}
variable {result : Except Error (List String)}

theorem nil (before : List Sql.Value) : StoresPrefix name before [] [] [] (.ok []) before := by
  constructor <;> simp [refusal?]

/-- If the first document is refused, nothing is stored. -/
theorem refused {error : Error}
    (refused : refusal? name (carriedIds (storedDocuments before)) assigned 0 = some error) :
    StoresPrefix name before (document :: rest) assigned [] (.error error) before := by
  constructor <;> simp [refused]

/-- If the first document is stored, the others are stored behind it. -/
theorem cons {id : String} (legible : (Json.object document).Legible)
    (free : id ∉ carriedIds (storedDocuments before))
    (stores : StoresPrefix name (before ++ [(document.withId id).row]) rest assigned own result
      after) :
    StoresPrefix name before (document :: rest) (.ok id :: assigned) (id :: own)
      ((id :: ·) <$> result) after := by
  have stored : carriedIds (storedDocuments (before ++ [(document.withId id).row])) =
      carriedIds (storedDocuments before) ++ [id] := by
    have decoded := Document.document?_row_iff.2 (Document.legible_withId legible id)
    have carried := (Document.Stamped.withId document id).id?_eq
    simp [storedDocuments, carriedIds, decoded, carried]
  rcases stores with ⟨bounded, accepted, stopped, assigned_eq, rows_eq, result_eq⟩
  rw [stored] at accepted stopped result_eq
  constructor
  case bounded => exact Nat.succ_le_succ bounded
  case accepted =>
      intro position earlier
      cases position with
      | zero => simp [refusal?, free]
      | succ position =>
          rw [refusal?_succ]
          exact accepted position (Nat.lt_of_succ_lt_succ earlier)
  case stopped =>
      intro fewer
      rw [List.length_cons, refusal?_succ]
      exact stopped (Nat.lt_of_succ_lt_succ fewer)
  case assigned_eq => simp [assigned_eq]
  case rows_eq => simp [rows_eq]
  case result_eq =>
      rw [List.length_cons, refusal?_succ, result_eq]
      cases refusal? name (carriedIds (storedDocuments before) ++ [id]) assigned own.length <;> rfl

/-- The id of a stored document is that of none before it. -/
theorem fresh {position : Nat} {id : String}
    (stores : StoresPrefix name before documents assigned own result after)
    (stored : own[position]? = some id) :
    id ∉ carriedIds (storedDocuments before) ++ own.take position := by
  rcases List.getElem?_eq_some_iff.1 stored with ⟨within, -⟩
  have here : assigned[position]? = some (.ok id) := by
    rw [← List.getElem?_take_of_lt within, stores.assigned_eq, List.getElem?_map, stored]
    rfl
  have earlier : assigned.take position = (own.take position).map .ok := by
    have both := congrArg (List.take position) stores.assigned_eq
    rwa [List.take_take, Nat.min_eq_left (Nat.le_of_lt within), ← List.map_take] at both
  have earlierIds : (assigned.take position).filterMap Except.toOption = own.take position := by
    rw [earlier, List.filterMap_map]
    exact List.filterMap_some
  have accepted := stores.accepted position within
  simp only [refusal?, here, earlierIds] at accepted
  intro taken
  rw [if_pos taken] at accepted
  cases accepted

theorem legible_zipWith (legible : ∀ document ∈ documents, (Json.object document).Legible)
    (own : List String) :
    ∀ stamped ∈ List.zipWith Document.withId documents own, (Json.object stamped).Legible := by
  intro stamped member
  rw [← List.map_uncurry_zip_eq_zipWith] at member
  rcases List.mem_map.1 member with ⟨⟨document, id⟩, inBoth, rfl⟩
  exact Document.legible_withId (legible document (List.of_mem_zip inBoth).1) id

/-- The documents that are stored can be read, behind those that were there. -/
theorem storedDocuments_eq (stores : StoresPrefix name before documents assigned own result after)
    (legible : ∀ document ∈ documents, (Json.object document).Legible) :
    storedDocuments after =
      storedDocuments before ++ List.zipWith Document.withId documents own := by
  rw [stores.rows_eq, storedDocuments, List.filterMap_append]
  exact congrArg (storedDocuments before ++ ·) (storedDocuments_rows (legible_zipWith legible own))

/-- If every row could be read before, every row can be read. -/
theorem decoded (stores : StoresPrefix name before documents assigned own result after)
    (legible : ∀ document ∈ documents, (Json.object document).Legible)
    (decoded : ∀ row ∈ before, row.document? ≠ none) : ∀ row ∈ after, row.document? ≠ none := by
  rw [stores.rows_eq, List.forall_mem_append]
  refine ⟨decoded, ?_⟩
  intro row member
  rcases List.mem_map.1 member with ⟨stamped, inBoth, rfl⟩
  rw [Document.document?_row_iff.2 (legible_zipWith legible own stamped inBoth)]
  exact Option.some_ne_none stamped

/-- A stored document is the first with its id. -/
theorem find?_eq {position : Nat} {id : String}
    (stores : StoresPrefix name before documents assigned own result after)
    (given : documents[position]? = some document) (stored : own[position]? = some id) :
    (storedDocuments before ++ List.zipWith Document.withId documents own).find?
      (RowTest.ofId id).accepts = some (document.withId id) := by
  rcases not_or.1 (mt List.mem_append.2 (stores.fresh stored)) with ⟨notBefore, notEarlier⟩
  rcases List.getElem?_eq_some_iff.1 given with ⟨inDocuments, rfl⟩
  rcases List.getElem?_eq_some_iff.1 stored with ⟨inOwn, isOwn⟩
  have none : (storedDocuments before).find? (RowTest.ofId id).accepts = none := by
    rw [List.find?_eq_none, ← List.any_eq_false, RowTest.any_accepts_ofId]
    exact decide_eq_false notBefore
  rw [List.find?_append, none, Option.none_or, List.find?_eq_some_iff_getElem]
  refine ⟨?_, position, ?_, ?_, ?_⟩
  · simp [RowTest.accepts_ofId, (Document.Stamped.withId documents[position] id).id?_eq]
  · rw [List.length_zipWith]
    exact Nat.lt_min.2 ⟨inDocuments, inOwn⟩
  · simp [isOwn]
  · intro earlier less
    have different : own[earlier] ≠ id := by
      rintro rfl
      exact notEarlier (List.mem_take_iff_getElem.2 ⟨earlier, by omega, rfl⟩)
    simp [RowTest.accepts_ofId, (Document.Stamped.withId documents[earlier] own[earlier]).id?_eq,
      different]

end StoresPrefix

namespace Collection

/-- Legible documents are stored up to the first one that is refused. -/
theorem run_insertMany (ids : IdSource ι) {rows : List Sql.Value} {documents : List Document}
    {store : MemoryStore} (known : store.rows? name = some rows)
    (readable : MemoryStore.isReadable name = true)
    (legible : ∀ document ∈ documents, (Json.object document).Legible) (source : ι) :
    ∃ own result last next after,
      (insertMany ⟨name, .text⟩ documents).run Engine.memory ids store source =
        (result, last, next) ∧
      last.rows? name = some after ∧
      StoresPrefix name rows documents (assignedIds ids documents source) own result after := by
  induction documents generalizing rows store source with
  | nil => exact ⟨[], .ok [], store, source, _, rfl, known, StoresPrefix.nil rows⟩
  | cons document rest ih =>
      rcases List.forall_mem_cons.1 legible with ⟨own, others⟩
      have first := run_insertOne ids known readable document source
      rw [insertMany, Session.run_bind, first, assignedIds]
      rcases document.assignedId ids source with ⟨assigned, next⟩
      cases assigned with
      | error other => exact ⟨[], _, _, _, _, rfl, known, StoresPrefix.refused rfl⟩
      | ok id =>
          by_cases taken : id ∈ carriedIds (storedDocuments rows)
          · simp only [taken]
            refine ⟨[], _, _, _, _, rfl, known, StoresPrefix.refused ?_⟩
            simp [refusal?, taken]
          · simp only [taken]
            have stored := MemoryStore.rows?_setRows known (rows ++ [(document.withId id).row])
            rcases ih stored others next with
              ⟨later, result, last, final, after, run, reached, stores⟩
            refine ⟨id :: later, (id :: ·) <$> result, last, final, after, ?_, reached,
              StoresPrefix.cons own taken stores⟩
            rw [if_neg not_false]
            simp only
            rw [Session.run_bind, run]
            cases result <;> rfl

/-- A collection can only be opened under a name that an engine can read. -/
theorem isReadable_of_opened {ids : IdSource ι} {store : MemoryStore} {source : ι}
    {collection : Collection}
    (opened : ((create .text name).run Engine.memory ids store source).1 = .ok collection) :
    MemoryStore.isReadable name = true := by
  rcases printed : Sql.Command.createTable.call .text name with error | call
  · cases printed
  have asked : call.table = name := by
    cases printed
    rfl
  cases readable : MemoryStore.isReadable name with
  | true => rfl
  | false =>
      have refused : store.execute call = .error (.execution .unreadable) := by
        rw [MemoryStore.execute, asked, readable]
        rfl
      simp only [create, execute, printed] at opened
      change (Session.run Engine.memory ids (.execute call fun _ => pure _) store source).1 = _
        at opened
      rw [Session.run] at opened
      simp only [Engine.memory, refused] at opened
      cases opened

/-- Documents are stored in a table whose rows can be read, whatever has been done to it since the
collection was opened. Those in front of the first one that is refused are appended in order, the
others are not, and the rows that were there stay. Each stored document is found by its id, which
now stands in front of its other fields. -/
theorem insertMany_stores_prefix (ids : IdSource ι) (name : String) (start : MemoryStore)
    (first : ι)
    (opened : ((create .text name).run Engine.memory ids start first).1 = .ok ⟨name, .text⟩)
    (store : MemoryStore) (source : ι) (rows : List Sql.Value)
    (known : store.rows? name = some rows) (decoded : ∀ row ∈ rows, row.document? ≠ none)
    (documents : List Document)
    (legible : ∀ document ∈ documents, (Json.object document).Legible) :
    ∃ own result last next after,
      (insertMany ⟨name, .text⟩ documents).run Engine.memory ids store source =
        (result, last, next) ∧
      last.rows? name = some after ∧
      StoresPrefix name rows documents (assignedIds ids documents source) own result after ∧
      ∀ (position : Nat) (document : Document) (id : String),
        documents[position]? = some document → own[position]? = some id →
          (findOne ⟨name, .text⟩ (.declarative ⟨[(idField, .string id)]⟩) {}).run Engine.memory
            ids last next = (.ok (some (document.withId id)), last, next) := by
  have readable := isReadable_of_opened opened
  rcases run_insertMany ids known readable legible source with
    ⟨own, result, last, next, after, run, reached, stores⟩
  refine ⟨own, result, last, next, after, run, reached, stores, ?_⟩
  intro position document id given stored
  have tested : Filter.rowTest (.declarative ⟨[(idField, .string id)]⟩) = .ok (.ofId id) := rfl
  rw [run_findOne ids reached readable next tested (stores.decoded legible decoded),
    stores.storedDocuments_eq legible, stores.find?_eq given stored]

/-- A document is stored under a fresh id, and the next one would take the id of the first row. -/
theorem insertMany_stores_prefix_of_taken :
    ((create .text "notes").run Engine.memory SequentialIds.fresh ⟨[]⟩ ⟨"note-", 1⟩).1 =
      .ok ⟨"notes", .text⟩ ∧
    MemoryStore.rows? ⟨[⟨"notes", [Document.row ⟨[("_id", .string "a")]⟩]⟩]⟩ "notes" =
      some [Document.row ⟨[("_id", .string "a")]⟩] ∧
    (∀ row ∈ [Document.row ⟨[("_id", .string "a")]⟩], row.document? ≠ none) ∧
    (∀ document ∈ [⟨[("title", .string "draft")]⟩, ⟨[("_id", .string "a")]⟩],
      (Json.object document).Legible) ∧
    ∃ own result last next after,
      (insertMany ⟨"notes", .text⟩
          [⟨[("title", .string "draft")]⟩, ⟨[("_id", .string "a")]⟩]).run Engine.memory
        SequentialIds.fresh ⟨[⟨"notes", [Document.row ⟨[("_id", .string "a")]⟩]⟩]⟩ ⟨"note-", 1⟩ =
        (result, last, next) ∧
      last.rows? "notes" = some after ∧
      StoresPrefix "notes" [Document.row ⟨[("_id", .string "a")]⟩]
        [⟨[("title", .string "draft")]⟩, ⟨[("_id", .string "a")]⟩]
        [.ok "note-000001", .ok "a"] own result after ∧
      ∀ (position : Nat) (document : Document) (id : String),
        [⟨[("title", .string "draft")]⟩, ⟨[("_id", .string "a")]⟩][position]? = some document →
        own[position]? = some id →
          (findOne ⟨"notes", .text⟩ (.declarative ⟨[(idField, .string id)]⟩) {}).run Engine.memory
            SequentialIds.fresh last next = (.ok (some (document.withId id)), last, next) := by
  have opened : ((create .text "notes").run Engine.memory SequentialIds.fresh ⟨[]⟩
      ⟨"note-", 1⟩).1 = .ok ⟨"notes", .text⟩ := rfl
  have decoded : ∀ row ∈ [Document.row ⟨[("_id", .string "a")]⟩], row.document? ≠ none := by
    decide +kernel
  have legible : ∀ document ∈ [⟨[("title", .string "draft")]⟩, ⟨[("_id", .string "a")]⟩],
      (Json.object document).Legible := by
    intro document member
    simp only [List.mem_cons, List.not_mem_nil, or_false] at member
    rcases member with rfl | rfl
    all_goals
      constructor
      case proper => simp [Json.Proper, Json.ProperEntries, Fields.Distinct, Fields.keys]
      case shallow => decide
      case exact => simp [Json.doubles, Json.doublesOfEntries]
  exact ⟨opened, rfl, decoded, legible, insertMany_stores_prefix SequentialIds.fresh "notes" ⟨[]⟩
    ⟨"note-", 1⟩ opened ⟨[⟨"notes", [Document.row ⟨[("_id", .string "a")]⟩]⟩]⟩ ⟨"note-", 1⟩
    [Document.row ⟨[("_id", .string "a")]⟩] rfl decoded _ legible⟩

end Collection

end DocTable
