import DocTable.Identifier
import DocTable.Proofs.Collection.Operation

/-!
# Histories of a collection

A history is a list of operations on one collection, some of which may fail.
Starting from an empty table of texts, every history leaves a keyed table, and
this is why a change that addresses rows by their text hits exactly the rows
that were chosen.
-/

namespace DocTable

variable {ι : Type} {name : String} {rows : List Sql.Value}

/-- The tables and the source of ids behind an operation. -/
def Operation.step (ids : IdSource ι) (collection : Collection) (state : MemoryStore × ι)
    (operation : Operation) : MemoryStore × ι :=
  ((operation.session collection).run Engine.memory ids state.1 state.2).2

/-- The tables and the source of ids behind operations, each of which may have
succeeded or failed. -/
def Collection.history (ids : IdSource ι) (collection : Collection) (operations : List Operation)
    (start : MemoryStore × ι) : MemoryStore × ι :=
  operations.foldl (Operation.step ids collection) start

namespace Collection

theorem history_append (ids : IdSource ι) (collection : Collection) (operations : List Operation)
    (next : Operation) (start : MemoryStore × ι) :
    history ids collection (operations ++ [next]) start =
      next.step ids collection (history ids collection operations start) := by
  simp [history]

theorem step_keyed (ids : IdSource ι) {state : MemoryStore × ι} (operation : Operation)
    (known : state.1.rows? name = some rows) (keyed : Keyed rows) :
    ∃ after, (operation.step ids ⟨name, .text⟩ state).1.rows? name = some after ∧
      Keyed after ∧ operation.Permits rows after := by
  have ends : Session.Ends ids name rows (operation.session ⟨name, .text⟩) fun _ after =>
      Keyed after ∧ operation.Permits rows after :=
    operation.ends_session keyed
  rcases ends state.1 state.2 known with ⟨result, last, next, after, run, reached, holds⟩
  refine ⟨after, ?_, holds⟩
  rw [Operation.step, run]
  exact reached

theorem history_keyed (ids : IdSource ι) (operations : List Operation) (start : MemoryStore × ι)
    (known : start.1.rows? name = some rows) (keyed : Keyed rows) :
    ∃ after, (history ids ⟨name, .text⟩ operations start).1.rows? name = some after ∧
      Keyed after := by
  induction operations generalizing start rows with
  | nil => exact ⟨rows, known, keyed⟩
  | cons operation rest ih =>
      rcases step_keyed ids operation known keyed with ⟨after, reached, keyedAfter, -⟩
      exact ih _ reached keyedAfter

/-- In every table that a history reaches, each document has an id in front and
no two documents have the same one. One more operation does to the rows what
its name permits: an insertion appends a row or changes nothing, a change keeps
the rows and the ids at their positions, and a deletion removes rows. -/
theorem history_permits (ids : IdSource ι) (name : String) (store : MemoryStore) (source : ι)
    (empty : store.rows? name = some []) (operations : List Operation) (next : Operation) :
    ∃ before after,
      (history ids ⟨name, .text⟩ operations (store, source)).1.rows? name = some before ∧
      (history ids ⟨name, .text⟩ (operations ++ [next]) (store, source)).1.rows? name =
        some after ∧
      Keyed before ∧ Keyed after ∧ next.Permits before after := by
  have reached := history_keyed ids operations (store, source) empty Keyed.nil
  rcases reached with ⟨before, reached, keyed⟩
  rcases step_keyed ids next reached keyed with ⟨after, later, keyedAfter, permitted⟩
  rw [← history_append] at later
  exact ⟨before, after, reached, later, keyed, keyedAfter, permitted⟩

theorem history_permits_of_insertion :
    MemoryStore.rows? ⟨[⟨"notes", []⟩]⟩ "notes" = some [] ∧
    ∃ before after,
      (history SequentialIds.fresh ⟨"notes", .text⟩
        [.insertOne ⟨[("title", .string "draft")]⟩]
        (⟨[⟨"notes", []⟩]⟩, ⟨"note-", 1⟩)).1.rows? "notes" = some before ∧
      (history SequentialIds.fresh ⟨"notes", .text⟩
        [.insertOne ⟨[("title", .string "draft")]⟩,
          .changeMany .all (.update ⟨[("title", .string "note")]⟩)]
        (⟨[⟨"notes", []⟩]⟩, ⟨"note-", 1⟩)).1.rows? "notes" = some after ∧
      Keyed before ∧ Keyed after ∧ KeepsIds before after :=
  ⟨rfl, history_permits SequentialIds.fresh "notes" ⟨[⟨"notes", []⟩]⟩ ⟨"note-", 1⟩ rfl
    [.insertOne ⟨[("title", .string "draft")]⟩]
    (.changeMany .all (.update ⟨[("title", .string "note")]⟩))⟩

/-- A change of a table that a history has reached either fails and leaves the
rows alone, or it has rewritten the matching rows once each, all of them or the
first one, and reports how many there were and how many of them it modified. -/
theorem history_rewrites (ids : IdSource ι) (name : String) (store : MemoryStore) (source : ι)
    (empty : store.rows? name = some []) (operations : List Operation) (filter : Filter)
    (change : Change) :
    ∃ before,
      (history ids ⟨name, .text⟩ operations (store, source)).1.rows? name = some before ∧
      Session.Ends ids name before (change.applyMany ⟨name, .text⟩ filter)
        (Outcome before fun after report => ∃ test function, filter.rowTest = .ok test ∧
          change.function = .ok function ∧ RewrittenAll test function before after report) ∧
      Session.Ends ids name before (change.applyOne ⟨name, .text⟩ filter)
        (Outcome before fun after report => ∃ test function, filter.rowTest = .ok test ∧
          change.function = .ok function ∧ RewrittenFirst test function before after report) := by
  have reached := history_keyed ids operations (store, source) empty Keyed.nil
  rcases reached with ⟨before, reached, keyed⟩
  exact ⟨before, reached, change.ends_applyMany keyed filter, change.ends_applyOne keyed filter⟩

/-- The one document that has been inserted is updated. -/
theorem history_rewrites_of_insertion :
    MemoryStore.rows? ⟨[⟨"notes", []⟩]⟩ "notes" = some [] ∧
    (∃ before,
      (history SequentialIds.fresh ⟨"notes", .text⟩ [.insertOne ⟨[("title", .string "draft")]⟩]
        (⟨[⟨"notes", []⟩]⟩, ⟨"note-", 1⟩)).1.rows? "notes" = some before ∧
      Session.Ends SequentialIds.fresh "notes" before
        (Collection.updateMany ⟨"notes", .text⟩ .all ⟨[("title", .string "note")]⟩)
        (Outcome before fun after report => ∃ test function, Filter.all.rowTest = .ok test ∧
          (Change.update ⟨[("title", .string "note")]⟩).function = .ok function ∧
          RewrittenAll test function before after report) ∧
      Session.Ends SequentialIds.fresh "notes" before
        (Collection.updateOne ⟨"notes", .text⟩ .all ⟨[("title", .string "note")]⟩)
        (Outcome before fun after report => ∃ test function, Filter.all.rowTest = .ok test ∧
          (Change.update ⟨[("title", .string "note")]⟩).function = .ok function ∧
          RewrittenFirst test function before after report)) ∧
    ((Collection.updateMany ⟨"notes", .text⟩ .all ⟨[("title", .string "note")]⟩).run Engine.memory
      SequentialIds.fresh
      (history SequentialIds.fresh ⟨"notes", .text⟩ [.insertOne ⟨[("title", .string "draft")]⟩]
        (⟨[⟨"notes", []⟩]⟩, ⟨"note-", 1⟩)).1 ⟨"note-", 2⟩).1.toOption = some ⟨1, 1⟩ :=
  ⟨rfl, history_rewrites SequentialIds.fresh "notes" ⟨[⟨"notes", []⟩]⟩ ⟨"note-", 1⟩ rfl
    [.insertOne ⟨[("title", .string "draft")]⟩] .all (.update ⟨[("title", .string "note")]⟩),
    by decide +kernel⟩

end Collection

end DocTable
