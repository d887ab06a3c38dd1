import DocTable.Engine.Scripted
import DocTable.Proofs.Collection.Operation
import DocTable.Proofs.Collection.Transcript

/-!
# Requests

A request is one operation on a collection. Whatever can be wrong with it is
found out before the first call: the update or the replacement is read, the
filter and the options are planned, and the statements that follow an answer can
always be written, since a row is found again by its text wherever a dialect
cannot look for its id. So a request that is malformed makes no call.
-/

namespace DocTable

open Session

variable {α β σ ι : Type}

/-- An operation on a collection with its arguments, other than the insertion of
a list, which is one request for each document. -/
inductive Request where
  | find (filter : Filter) (options : FindOptions)
  | findOne (filter : Filter) (options : FindOptions)
  | count (filter : Filter)
  | insertOne (document : Document)
  | changeOne (filter : Filter) (change : Change)
  | changeMany (filter : Filter) (change : Change)
  | deleteOne (filter : Filter)
  | deleteMany (filter : Filter)

/-- What a request does, without its result. -/
def Request.session (collection : Collection) : Request → Session Unit
  | .find filter options => Session.ignoring (collection.find filter options)
  | .findOne filter options => Session.ignoring (collection.findOne filter options)
  | .count filter => Session.ignoring (collection.count filter)
  | .insertOne document => Session.ignoring (collection.insertOne document)
  | .changeOne filter change => Session.ignoring (change.applyOne collection filter)
  | .changeMany filter change => Session.ignoring (change.applyMany collection filter)
  | .deleteOne filter => Session.ignoring (collection.deleteOne filter)
  | .deleteMany filter => Session.ignoring (collection.deleteMany filter)

/-- A row is found by its id only in a dialect that can look for it. -/
theorem StoredRow.key_cases (dialect : Sql.Dialect) (row : StoredRow) :
    (∃ engine id, dialect = .json engine ∧ row.key dialect = .id id) ∨
      row.key dialect = .text row.raw := by
  cases dialect with
  | text => exact .inr rfl
  | json engine =>
      cases found : row.document.id? with
      | none => exact .inr (by simp [key, found])
      | some id => exact .inl ⟨engine, id, rfl, by simp [key, found]⟩

namespace Collection

variable (collection : Collection)

theorem writes_execute {command : Sql.Command}
    (writable : ∃ call, command.call collection.dialect collection.name = .ok call) :
    (collection.execute command).Writes := by
  rcases writable with ⟨call, written⟩
  rw [execute, written]
  exact Writes.pure

theorem writes_writeBack (patch : Option String) (change : Document → Document × Bool)
    (rows : List StoredRow) : (collection.writeBack patch change rows).Writes := by
  induction rows with
  | nil => exact Writes.pure 0
  | cons row rest ih =>
      rw [writeBack]
      simp only []
      split
      · apply Writes.bind
        · apply writes_execute
          rcases row.key_cases collection.dialect with ⟨engine, id, json, key⟩ | key
          · rw [key, json]
            cases patch <;> exact ⟨_, rfl⟩
          · rw [key]
            cases patch <;> exact ⟨_, rfl⟩
        · intro affected
          apply ih.bind
          intro count
          exact Writes.pure _
      · exact ih

theorem writes_deleteRows (rows : List StoredRow) : (collection.deleteRows rows).Writes := by
  induction rows with
  | nil => exact Writes.pure 0
  | cons row rest ih =>
      rw [deleteRows]
      apply Writes.bind
      · apply writes_execute
        rcases row.key_cases collection.dialect with ⟨engine, id, json, key⟩ | key
        · rw [key, json]
          exact ⟨_, rfl⟩
        · rw [key]
          exact ⟨_, rfl⟩
      · intro deleted
        apply ih.bind
        intro count
        exact Writes.pure _

theorem orderly_find (filter : Filter) (options : FindOptions) :
    (collection.find filter options).Orderly := by
  apply Orderly.after (Silent.lift _)
  intro plan rows
  exact Writes.pure _

theorem writes_allRows (cursor : Cursor) : (liftM cursor.allRows : Session _).Writes := by
  apply Writes.lift
  intro cause failed
  rcases Cursor.decode_of_allRows failed with ⟨decode, isDecode⟩
  cases isDecode

theorem orderly_snapshot (filter : Filter) (limit : Option Nat) :
    (collection.snapshot filter limit).Orderly := by
  apply (collection.orderly_find filter { limit }).bind
  exact writes_allRows

theorem orderly_findOne (filter : Filter) (options : FindOptions) :
    (collection.findOne filter options).Orderly := by
  apply (collection.orderly_find filter { options with limit := some 1 }).bind
  intro cursor
  rcases step : cursor.nextRow with ⟨item, next⟩
  simp only [Cursor.advance, step]
  cases item with
  | none => exact Writes.pure _
  | some item =>
      cases item with
      | ok row => exact Writes.pure _
      | error error =>
          rcases Cursor.decode_of_nextRow step with ⟨decode, rfl⟩
          exact Writes.fail (by simp)

theorem orderly_count (filter : Filter) : (collection.count filter).Orderly := by
  apply Orderly.after (Silent.lift _)
  intro call
  cases call with
  | some call => exact fun rows => Writes.pure _
  | none =>
      apply (collection.orderly_find filter {}).bind
      intro cursor
      apply (writes_allRows cursor).bind
      intro rows
      exact Writes.pure _

theorem silent_stamp (document : Document) : (stamp document).Silent := by
  apply (Silent.lift _).bind
  intro supplied
  cases supplied with
  | some id => trivial
  | none => exact fun id => trivial

theorem orderly_isTaken (id : String) : (collection.isTaken id).Orderly := by
  apply (collection.orderly_find _ {}).bind
  intro cursor
  exact Writes.pure _

theorem orderly_insertOne (document : Document) : (collection.insertOne document).Orderly := by
  apply Orderly.after (silent_stamp document)
  intro both
  rcases both with ⟨id, stamped⟩
  apply (collection.orderly_isTaken id).bind
  intro taken
  cases taken with
  | true => exact Writes.fail (by simp)
  | false =>
      apply (collection.writes_execute ⟨_, rfl⟩).bind
      intro affected
      exact Writes.pure _

theorem orderly_changeChosen (filter : Filter) (limit : Option Nat) (patch : Option String)
    (change : Document → Document × Bool) :
    (collection.changeChosen filter limit patch change).Orderly := by
  apply (collection.orderly_snapshot filter limit).bind
  intro rows
  apply (collection.writes_writeBack patch change rows).bind
  intro modified
  exact Writes.pure _

end Collection

theorem Change.orderly_session (collection : Collection) (filter : Filter) (limit : Option Nat)
    (change : Change) : (change.session collection filter limit).Orderly := by
  cases change with
  | update document =>
      apply Orderly.after (Silent.lift _)
      intro update
      exact collection.orderly_changeChosen filter limit _ _
  | replacement document =>
      apply Orderly.after (Silent.lift _)
      intro checked
      split
      · trivial
      · exact collection.orderly_changeChosen filter limit _ _

theorem Session.Orderly.ignoring {session : Session α} (orderly : session.Orderly) :
    (Session.ignoring session).Orderly := by
  apply orderly.bind
  intro value
  exact Writes.pure _

/-- Every request is orderly. -/
theorem Request.orderly (collection : Collection) (request : Request) :
    (request.session collection).Orderly := by
  cases request with
  | find filter options => exact (collection.orderly_find filter options).ignoring
  | findOne filter options => exact (collection.orderly_findOne filter options).ignoring
  | count filter => exact (collection.orderly_count filter).ignoring
  | insertOne document => exact (collection.orderly_insertOne document).ignoring
  | changeOne filter change =>
      rw [session, change.applyOne_eq]
      exact (change.orderly_session collection filter (some 1)).ignoring
  | changeMany filter change =>
      rw [session, change.applyMany_eq]
      exact (change.orderly_session collection filter none).ignoring
  | deleteOne filter =>
      apply Orderly.ignoring
      apply (collection.orderly_snapshot filter (some 1)).bind
      exact collection.writes_deleteRows
  | deleteMany filter =>
      apply Orderly.ignoring
      apply Orderly.after (Silent.lift _)
      intro call
      cases call with
      | some call => exact Writes.pure
      | none => exact (collection.orderly_snapshot filter none).bind collection.writes_deleteRows

theorem Engine.scripted_conforms : Engine.scripted.Conforms := by
  intro exchange given error failure
  cases exchange with
  | query call answer =>
      rcases given with ⟨replies, rfl⟩
      rcases replies with _ | ⟨_ | _ | _, rest⟩ <;> cases failure
      exact ⟨_, rfl⟩
  | execute call answer =>
      rcases given with ⟨replies, rfl⟩
      rcases replies with _ | ⟨_ | _ | _, rest⟩ <;> cases failure
      exact ⟨_, rfl⟩

/-- A request that ends as malformed has made no call. Only an engine that
breaks its interface by giving this error for an answer can make a request end
so after a call. -/
theorem Request.no_call_of_compilation (collection : Collection) (request : Request)
    (engine : Engine σ) (ids : IdSource ι) (state : σ) (source : ι) {cause : CompilationError}
    (malformed : ((request.session collection).run engine.recording ids ⟨[], state⟩ source).1 =
      .error (.compilation cause)) :
    (engine.Conforms → ((request.session collection).run engine.recording ids ⟨[], state⟩
        source).2.1.calls = []) ∧
      (((request.session collection).run engine.recording ids ⟨[], state⟩ source).2.1.calls = [] ∨
        ∃ before exchange, (request.session collection).transcript engine ids state source =
            before ++ [exchange] ∧ exchange.IsGivenBy engine ∧
          exchange.failure? = some (.compilation cause)) := by
  rcases run_recording (request.session collection) [] state source with ⟨result, calls⟩
  rw [result] at malformed
  rw [calls]
  have orderly := request.orderly collection
  rcases orderly.failure_of_compilation malformed with none | ⟨before, exchange, split, failure⟩
  · simp [none]
  · have given : exchange.IsGivenBy engine := by
      apply isGivenBy_of_mem_transcript
      rw [split]
      simp
    refine ⟨?_, .inr ⟨before, exchange, split, given, failure⟩⟩
    intro conforms
    rcases conforms exchange given _ failure with ⟨other, impossible⟩
    cases impossible

/-- A search with an unknown operator makes no call. -/
theorem Request.no_call_of_compilation_of_operator :
    (((Request.find (.declarative ⟨[("$x", .null)]⟩) {}).session ⟨"t", .json .sqlite⟩).run
      Engine.scripted.recording (fun used : Nat => ("id", used + 1))
        ⟨[], [.error "down"]⟩ 0).2.1.calls = [] := by
  have silent := Request.no_call_of_compilation ⟨"t", .json .sqlite⟩
    (.find (.declarative ⟨[("$x", .null)]⟩) {}) Engine.scripted
    (fun used : Nat => ("id", used + 1)) [.error "down"] 0 rfl
  exact silent.1 Engine.scripted_conforms

end DocTable
