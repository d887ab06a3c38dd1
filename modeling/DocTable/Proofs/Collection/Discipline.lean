import DocTable.Proofs.Collection.Request

/-!
# Call discipline

Which calls a request makes and where it stops. A request asks at most one
query, before it writes anything. If the rows that answer the query cannot be
read as far as they are needed, or show that an id is taken, nothing is written;
and a call that fails is the last one, the calls up to it being those of a run in
which it does not fail.
-/

namespace DocTable

open Session

variable {α β γ σ ι : Type} {engine : Engine σ} {ids : IdSource ι} {state : σ} {source : ι}

/-- The stored values in the rows of an answer; a row without columns stores nothing. -/
def storedValues (rows : List Sql.Row) : List Sql.Value := rows.map fun row => row.head?.getD .null

theorem Session.bind_assoc (session : Session α) (next : α → Session β) (last : β → Session γ) :
    (session >>= next) >>= last = session >>= fun value => next value >>= last := by
  change (session.bind next).bind last = session.bind fun value => (next value).bind last
  induction session with
  | done result => cases result <;> rfl
  | query call rest ih => exact congrArg (Session.query call) (funext ih)
  | execute call rest ih => exact congrArg (Session.execute call) (funext ih)
  | freshId rest ih => exact congrArg Session.freshId (funext ih)

/-- A session that has been answered with rows and ends. -/
theorem Session.ends_behind_query {session : Session α} {call other : Sql.Call}
    {next : List Sql.Row → Session α} {rows : List Sql.Row} {error : Error}
    (isQuery : session = .query call next) (ended : next rows = .done (.error error))
    (answered : (session.transcript engine ids state source).head? =
      some (.query other (.ok rows))) :
    session.transcript engine ids state source = [.query other (.ok rows)] ∧
      (session.run engine ids state source).1 = .error error := by
  subst isQuery
  rcases reply : engine.query call state with ⟨answer, after⟩
  cases answer with
  | error own =>
      rw [transcript_query_error reply] at answered
      cases answered
  | ok own =>
      rw [transcript_query_ok reply] at answered ⊢
      rw [run_query_ok reply]
      cases answered
      rw [ended]
      exact ⟨rfl, rfl⟩

/-- A search reads on behind some values: all of them hold documents, and where
rows are tested in process the limit has not been reached. -/
structure FindPlan.ReadsOn (plan : FindPlan) (values : List Sql.Value) : Prop where
  readable : ∀ value ∈ values, ∃ row, StoredRow.ofValue value = .ok row
  unfilled : ∀ scan ∈ plan.scan, ∀ limit ∈ scan.limit,
    (values.filterMap scan.test.chosen?).length < limit

/-- A search without options neither sorts nor leaves out any rows. -/
theorem FindPlan.build_unsorted (dialect : Sql.Dialect) (table : String) (filter : Filter)
    (limit : Option Nat) :
    Ensures (fun plan => ∀ scan ∈ plan.scan, scan.sort = [] ∧ scan.skip = 0)
      (FindPlan.build dialect table filter { limit }) := by
  apply (Ensures.trivially (filter.choice dialect)).bind
  intro choice _
  cases choice.rowTest with
  | none =>
      apply (Ensures.trivially (Sql.Command.call dialect table _)).bind
      intro call _
      exact Ensures.pure nofun
  | some test =>
      apply (Ensures.trivially (Sql.Command.call dialect table _)).bind
      intro call _
      apply Ensures.pure
      intro scan isScan
      cases isScan
      exact ⟨rfl, rfl⟩

/-- Reading the chosen rows ends at the first value that holds no document. -/
theorem Cursor.allRows_of_unreadable {plan : FindPlan} {rows : List Sql.Row}
    {before after : List Sql.Value} {bad : Sql.Value} {error : Error}
    (unsorted : ∀ scan ∈ plan.scan, scan.sort = [] ∧ scan.skip = 0)
    (readsOn : plan.ReadsOn before) (stored : storedValues rows = before ++ bad :: after)
    (failed : StoredRow.ofValue bad = .error error) :
    (Cursor.ofRows plan rows).allRows = .error error := by
  have cursor : Cursor.ofRows plan rows =
      ⟨before ++ bad :: after, plan.scan.map Scan.start, plan.projection, false⟩ := by
    rw [← stored]
    rfl
  rw [Cursor.allRows, cursor]
  cases search : plan.scan with
  | none =>
      rw [Option.map_none, drainRows_pushdown, List.map_append, List.map_cons, failed]
      apply Scan.mapM_id_append_error
      intro item member
      rcases List.mem_map.1 member with ⟨value, inBefore, rfl⟩
      exact readsOn.readable value inBefore
  | some scan =>
      rcases unsorted scan search with ⟨sort, skip⟩
      rw [Option.map_some, drainRows_scan _ _ _ sort]
      simp only [Scan.start, skip]
      exact Scan.mapM_handedOut_unreadable readsOn.readable (readsOn.unfilled scan search) failed

/-- A session that begins by reading the chosen rows, answered with rows that
cannot be read as far as they are needed. -/
theorem Collection.snapshot_of_unreadable {collection : Collection} {filter : Filter}
    {limit : Option Nat} {rest : List StoredRow → Session α} {plan : FindPlan} {call : Sql.Call}
    {rows : List Sql.Row} {before after : List Sql.Value} {bad : Sql.Value} {error : Error}
    (built : FindPlan.build collection.dialect collection.name filter { limit } = .ok plan)
    (answered : ((collection.snapshot filter limit >>= rest).transcript engine ids state
      source).head? = some (.query call (.ok rows)))
    (readsOn : plan.ReadsOn before) (stored : storedValues rows = before ++ bad :: after)
    (failed : StoredRow.ofValue bad = .error error) :
    (collection.snapshot filter limit >>= rest).transcript engine ids state source =
        [.query call (.ok rows)] ∧
      ((collection.snapshot filter limit >>= rest).run engine ids state source).1 =
        .error error := by
  have unsorted := (FindPlan.build_unsorted _ _ filter limit).of_ok plan built
  have unread := Cursor.allRows_of_unreadable unsorted readsOn stored failed
  have isQuery : (collection.snapshot filter limit >>= rest) = .query plan.call fun rows =>
      liftM (Cursor.ofRows plan rows).allRows >>= rest := by
    rw [snapshot, find, built]
    rfl
  apply ends_behind_query isQuery _ answered
  rw [unread]
  rfl

/-- A change is malformed or begins by reading the chosen rows. -/
theorem Change.session_cases (collection : Collection) (filter : Filter) (limit : Option Nat)
    (change : Change) :
    (∃ error, Session.ignoring (change.session collection filter limit) = .done (.error error)) ∨
      ∃ rest, Session.ignoring (change.session collection filter limit) =
        collection.snapshot filter limit >>= rest := by
  cases change with
  | update document =>
      rw [session, Collection.update]
      cases Update.ofDocument document with
      | error error => exact .inl ⟨error, rfl⟩
      | ok update => exact .inr ⟨_, Session.bind_assoc (collection.snapshot _ _) _ _⟩
  | replacement document =>
      rw [session, Collection.replace]
      cases checkReplacement document with
      | error error => exact .inl ⟨error, rfl⟩
      | ok checked =>
          cases document.contains idField with
          | true => exact .inl ⟨UpdateError.idReplaced, rfl⟩
          | false => exact .inr ⟨_, Session.bind_assoc (collection.snapshot _ _) _ _⟩

namespace Request

/-- The filter and the limit of the rows that a request reads before it writes. -/
def snapshot? : Request → Option (Filter × Option Nat)
  | .changeOne filter _ | .deleteOne filter => some (filter, some 1)
  | .changeMany filter _ | .deleteMany filter => some (filter, none)
  | .find .. | .findOne .. | .count _ | .insertOne _ => none

/-- Such a request is malformed, leaves the choice of rows to the engine, or
begins by reading them. -/
theorem session_of_snapshot? (collection : Collection) {request : Request} {filter : Filter}
    {limit : Option Nat} (snapshot : request.snapshot? = some (filter, limit)) :
    (∃ error, request.session collection = .done (.error error)) ∨
      (∃ call next, request.session collection = .execute call next) ∨
        ∃ rest, request.session collection = collection.snapshot filter limit >>= rest := by
  cases request with
  | changeOne own change =>
      cases snapshot
      rw [session, change.applyOne_eq]
      rcases change.session_cases collection filter (some 1) with malformed | reads
      · exact .inl malformed
      · exact .inr (.inr reads)
  | changeMany own change =>
      cases snapshot
      rw [session, change.applyMany_eq]
      rcases change.session_cases collection filter none with malformed | reads
      · exact .inl malformed
      · exact .inr (.inr reads)
  | deleteOne own =>
      cases snapshot
      exact .inr (.inr ⟨_, Session.bind_assoc (collection.snapshot _ _) _ _⟩)
  | deleteMany own =>
      cases snapshot
      rw [session, Collection.deleteMany]
      cases filter.callWhere? collection.dialect collection.name .deleteWhere with
      | error error => exact .inl ⟨error, rfl⟩
      | ok call =>
          cases call with
          | some call => exact .inr (.inl ⟨call, _, rfl⟩)
          | none => exact .inr (.inr ⟨_, Session.bind_assoc (collection.snapshot _ _) _ _⟩)
  | find _ _ | findOne _ _ | count _ | insertOne _ => cases snapshot

/-- Rows that cannot be read as far as they are needed keep a request from writing. -/
theorem stops_at_unreadable (collection : Collection) {request : Request} {filter : Filter}
    {limit : Option Nat} {plan : FindPlan} {call : Sql.Call} {rows : List Sql.Row}
    {before after : List Sql.Value} {bad : Sql.Value} {error : Error}
    (snapshot : request.snapshot? = some (filter, limit))
    (built : FindPlan.build collection.dialect collection.name filter { limit } = .ok plan)
    (answered : ((request.session collection).transcript engine ids state source).head? =
      some (.query call (.ok rows)))
    (readsOn : plan.ReadsOn before) (stored : storedValues rows = before ++ bad :: after)
    (failed : StoredRow.ofValue bad = .error error) :
    (request.session collection).transcript engine ids state source = [.query call (.ok rows)] ∧
      ((request.session collection).run engine ids state source).1 = .error error := by
  rcases request.session_of_snapshot? collection snapshot with
    ⟨own, malformed⟩ | ⟨own, next, executes⟩ | ⟨rest, reads⟩
  · rw [malformed] at answered
    cases answered
  · rw [executes, transcript] at answered
    split at answered <;> cases answered
  · rw [reads] at answered ⊢
    exact Collection.snapshot_of_unreadable built answered readsOn stored failed

end Request

/-- A row that can be read and, where the engine cannot look for the id, has
this id. -/
def StoredRow.ShowsTaken (dialect : Sql.Dialect) (id : String) (row : StoredRow) : Prop :=
  dialect = .text → row.document.id? = some id

/-- An engine that looks inside documents does the whole test of a match document. -/
theorem FindPlan.build_json (engine : Sql.JsonDialect) (table : String) (filter : Document)
    (options : FindOptions) :
    Ensures (fun plan => plan.scan = none)
      (FindPlan.build (.json engine) table (.declarative filter) options) := by
  apply (Ensures.trivially (options.projection.mapM ProjectionRequest.resolve)).bind
  intro projection _
  apply (Ensures.trivially (sortTerms options.sortKeys)).bind
  intro sort _
  have choice : Ensures (fun choice : RowChoice => choice.rowTest = none)
      (Filter.choice (.json engine) (.declarative filter)) := by
    apply (Ensures.trivially (Condition.ofDocument filter)).bind
    intro condition _
    exact Ensures.pure rfl
  apply choice.bind
  intro choice none
  rw [none]
  apply (Ensures.trivially (Sql.Command.call _ table _)).bind
  intro call _
  exact Ensures.pure rfl

/-- An answer with such a row tells that the id is taken. -/
theorem Cursor.any_drainRows_of_taken {dialect : Sql.Dialect} {table id : String} {plan : FindPlan}
    {rows : List Sql.Row} {value : Sql.Value} {row : StoredRow}
    (built : FindPlan.build dialect table (.declarative ⟨[(idField, .string id)]⟩) {} = .ok plan)
    (member : value ∈ storedValues rows) (decoded : StoredRow.ofValue value = .ok row)
    (taken : row.ShowsTaken dialect id) :
    (Cursor.ofRows plan rows).drainRows.any (·.isOk) = true := by
  have handedOut : .ok row ∈ (Cursor.ofRows plan rows).drainRows := by
    have cursor : Cursor.ofRows plan rows =
        ⟨storedValues rows, plan.scan.map Scan.start, plan.projection, false⟩ := rfl
    cases dialect with
    | json engine =>
        have pushdown := (FindPlan.build_json engine table _ {}).of_ok plan built
        rw [cursor, pushdown, Option.map_none, drainRows_pushdown, ← decoded]
        exact List.mem_map_of_mem member
    | text =>
        rcases FindPlan.build_text built with ⟨test, sort, statement, tested, sorted, -, scan⟩
        rw [Filter.rowTest, Condition.ofDocument_id] at tested
        cases tested
        cases sorted
        have chosen : RowTest.chosen? (.condition (.compare Sql.idPath .eq (.string id))) value =
            some row :=
          RowTest.chosen?_eq_some_iff.2 ⟨decoded, Document.holds_id_iff.2 (taken rfl)⟩
        rw [cursor, scan, Option.map_some, drainRows_scan _ _ _ rfl]
        exact Scan.mem_handedOut_all member chosen
  exact List.any_eq_true.2 ⟨_, handedOut, rfl⟩

/-- What is left of an insertion once the document has its id. -/
def Collection.store (collection : Collection) (stamped : String × Document) : Session String := do
  if ← collection.isTaken stamped.1 then Session.fail (.duplicateId collection.name stamped.1)
  else do
    let _ ← collection.execute (.insert stamped.2.text)
    return stamped.1

theorem Collection.insertOne_eq (collection : Collection) (document : Document) :
    collection.insertOne document = stamp document >>= collection.store :=
  rfl

/-- A document is stored after one query, if the answer does not show its id as taken. -/
theorem Collection.store_cases (collection : Collection) (id : String) (front : Document) :
    (∃ error, Session.ignoring (collection.store (id, front)) = .done (.error error)) ∨
      ∃ plan, FindPlan.build collection.dialect collection.name
          (.declarative ⟨[(idField, .string id)]⟩) {} = .ok plan ∧
        Session.ignoring (collection.store (id, front)) = .query plan.call fun rows =>
          Session.ignoring
            (if (Cursor.ofRows plan rows).drainRows.any (·.isOk) then
              Session.fail (.duplicateId collection.name id)
            else do
              let _ ← collection.execute (.insert front.text)
              return id) := by
  rw [store, isTaken, find]
  cases FindPlan.build collection.dialect collection.name
      (.declarative ⟨[(idField, .string id)]⟩) {} with
  | error error => exact .inl ⟨error, rfl⟩
  | ok plan => exact .inr ⟨plan, rfl, rfl⟩

/-- An answer that shows that an id is taken keeps a document from being stored. -/
theorem Request.stops_at_taken (collection : Collection) {document front : Document} {id : String}
    {after : σ} {later : ι} {call : Sql.Call} {rows : List Sql.Row} {value : Sql.Value}
    {row : StoredRow}
    (stamped : (Collection.stamp document).run engine ids state source =
      (.ok (id, front), after, later))
    (answered : (((Request.insertOne document).session collection).transcript engine ids state
      source).head? = some (.query call (.ok rows)))
    (member : value ∈ storedValues rows) (decoded : StoredRow.ofValue value = .ok row)
    (taken : row.ShowsTaken collection.dialect id) :
    ((Request.insertOne document).session collection).transcript engine ids state source =
        [.query call (.ok rows)] ∧
      (((Request.insertOne document).session collection).run engine ids state source).1 =
        .error (.duplicateId collection.name id) := by
  have assembled : (Request.insertOne document).session collection =
      Collection.stamp document >>= fun stamped => Session.ignoring (collection.store stamped) := by
    rw [session, Collection.insertOne_eq]
    exact Session.bind_assoc _ _ _
  have silent : (Collection.stamp document).transcript engine ids state source = [] :=
    (Collection.silent_stamp document).transcript_eq_nil state source
  have calls : ((Request.insertOne document).session collection).transcript engine ids state
      source = (Session.ignoring (collection.store (id, front))).transcript engine ids after
        later := by
    rw [assembled, transcript_bind, silent, stamped]
    rfl
  have result : ((Request.insertOne document).session collection).run engine ids state source =
      (Session.ignoring (collection.store (id, front))).run engine ids after later := by
    rw [assembled, run_bind, stamped]
  rw [calls] at answered ⊢
  rw [result]
  rcases collection.store_cases id front with ⟨error, malformed⟩ | ⟨plan, built, asks⟩
  · rw [malformed] at answered
    cases answered
  · apply ends_behind_query asks _ answered
    rw [Cursor.any_drainRows_of_taken built member decoded taken]
    rfl

/-! ## The discipline of a run -/

/-- What is known of the calls of a session and of its result. -/
structure Session.Disciplined (session : Session α) (engine : Engine σ) (ids : IdSource ι)
    (state : σ) (source : ι) : Prop where
  /-- There is one query at most, and it is the first call. -/
  asks_first : ∃ asked written,
    session.transcript engine ids state source = asked ++ written ∧ asked.length ≤ 1 ∧
      (∀ exchange ∈ asked, exchange.isQuery = true) ∧
        ∀ exchange ∈ written, exchange.isQuery = false
  /-- A call that fails is the last one, and its error is the result. -/
  failure_last : ∀ before exchange after error,
    session.transcript engine ids state source = before ++ exchange :: after →
      exchange.failure? = some error →
        after = [] ∧ (session.run engine ids state source).1 = .error error
  /-- If the call with some number fails instead, the calls are those up to it. -/
  failure_prefix : ∀ index error,
    index < (session.transcript engine ids state source).length →
      (session.transcript (engine.failing error) ids (index, state) source).map Exchange.call =
          ((session.transcript engine ids state source).map Exchange.call).take (index + 1) ∧
        (session.run (engine.failing error) ids (index, state) source).1 = .error error

theorem Session.Orderly.disciplined {session : Session α} (orderly : session.Orderly)
    (engine : Engine σ) (ids : IdSource ι) (state : σ) (source : ι) :
    session.Disciplined engine ids state source := by
  constructor
  · exact orderly.transcript_split state source
  · intro before exchange after error split failure
    exact ends_with_failure split failure
  · intro index error made
    rcases run_failing session error index state source with ⟨calls, result⟩
    rw [if_pos made] at result
    exact ⟨calls, result⟩

/-- Every request keeps the discipline of calls, and writes nothing if the rows
that it reads first cannot be read or show that an id is taken. -/
theorem Request.call_discipline (collection : Collection) (request : Request) (engine : Engine σ)
    (ids : IdSource ι) (state : σ) (source : ι) :
    (request.session collection).Disciplined engine ids state source ∧
    (∀ filter limit plan call rows before bad after error,
      request.snapshot? = some (filter, limit) →
      FindPlan.build collection.dialect collection.name filter { limit } = .ok plan →
      ((request.session collection).transcript engine ids state source).head? =
        some (.query call (.ok rows)) →
      storedValues rows = before ++ bad :: after → plan.ReadsOn before →
      StoredRow.ofValue bad = .error error →
        (request.session collection).transcript engine ids state source =
            [.query call (.ok rows)] ∧
          ((request.session collection).run engine ids state source).1 = .error error ∧
            ∃ cause, error = .decode cause) ∧
    ∀ document id front later call rows value row,
      request = .insertOne document →
      (Collection.stamp document).run engine ids state source = (.ok (id, front), later) →
      ((request.session collection).transcript engine ids state source).head? =
        some (.query call (.ok rows)) →
      value ∈ storedValues rows → StoredRow.ofValue value = .ok row →
      row.ShowsTaken collection.dialect id →
        (request.session collection).transcript engine ids state source =
            [.query call (.ok rows)] ∧
          ((request.session collection).run engine ids state source).1 =
            .error (.duplicateId collection.name id) := by
  refine ⟨(request.orderly collection).disciplined engine ids state source, ?_, ?_⟩
  · intro filter limit plan call rows before bad after error snapshot built answered stored readsOn
      failed
    rcases request.stops_at_unreadable collection snapshot built answered readsOn stored failed with
      ⟨calls, result⟩
    exact ⟨calls, result, StoredRow.decode_of_ofValue failed⟩
  · intro document id front later call rows value row isInsertion stamped answered member decoded
      taken
    subst isInsertion
    exact stops_at_taken collection stamped answered member decoded taken

/-- A null in the document column keeps a deletion from deleting. -/
theorem Request.call_discipline_of_null :
    (((Request.deleteOne .all).session ⟨"t", .json .sqlite⟩).run Engine.scripted
      (fun used : Nat => ("id", used + 1)) [.rows [[.null]]] 0).1 =
        .error (.decode (.notColumnText .null)) := by
  have disciplined := Request.call_discipline ⟨"t", .json .sqlite⟩ (.deleteOne .all) Engine.scripted
    (fun used : Nat => ("id", used + 1)) [.rows [[.null]]] 0
  have stopped := disciplined.2.1 .all (some 1) _ _ [[.null]] [] .null [] _ rfl rfl rfl rfl
    ⟨nofun, nofun⟩ rfl
  exact stopped.2.1

end DocTable
