import DocTable.Collection
import DocTable.Proofs.Collection.Keyed

/-!
# Collections over a table of texts

What the steps of a collection do to a table in memory when the dialect cannot
look inside documents. Such a collection reads all rows, chooses among them in
process and addresses a row by its text. `Ends` relates the rows of the table
before a session to its result and to the rows behind it, whatever the other
tables are and whichever ids are drawn.
-/

namespace DocTable

variable {ι α β : Type} {ids : IdSource ι} {name : String} {rows : List Sql.Value}

/-- On a table with these rows the session ends with a result and rows that are
related as they should be. -/
def Session.Ends (ids : IdSource ι) (name : String) (rows : List Sql.Value) (session : Session α)
    (post : Except Error α → List Sql.Value → Prop) : Prop :=
  ∀ (store : MemoryStore) (source : ι), store.rows? name = some rows →
    ∃ result last next after, session.run Engine.memory ids store source = (result, last, next) ∧
      last.rows? name = some after ∧ post result after

/-- The session leaves the rows alone, and if it returns a value, the value is
one that may be found there. -/
def Session.Reads (ids : IdSource ι) (name : String) (rows : List Sql.Value) (session : Session α)
    (found : α → Prop) : Prop :=
  Ends ids name rows session fun result after =>
    after = rows ∧ ∀ value, result = .ok value → found value

/-- The session does not fail. It returns the value and leaves the other rows behind. -/
def Session.Leaves (ids : IdSource ι) (name : String) (rows : List Sql.Value) (session : Session α)
    (value : α) (after : List Sql.Value) : Prop :=
  Ends ids name rows session fun result rest => result = .ok value ∧ rest = after

namespace Session.Ends

variable {session : Session α} {post : Except Error α → List Sql.Value → Prop}
variable {last : Except Error β → List Sql.Value → Prop}

theorem done {result : Except Error α} (holds : post result rows) :
    Ends ids name rows (.done result) post := by
  intro store source known
  exact ⟨result, store, source, rows, rfl, known, holds⟩

theorem pure {value : α} (holds : post (.ok value) rows) :
    Ends ids name rows (Pure.pure value) post :=
  done holds

theorem mono {weaker : Except Error α → List Sql.Value → Prop}
    (ends : Ends ids name rows session post)
    (weaken : ∀ result after, post result after → weaker result after) :
    Ends ids name rows session weaker := by
  intro store source known
  rcases ends store source known with ⟨result, last, next, after, run, rows, holds⟩
  exact ⟨result, last, next, after, run, rows, weaken result after holds⟩

/-- A session ends in one way, so what is known of its end holds together. -/
theorem and {other : Except Error α → List Sql.Value → Prop}
    (first : Ends ids name rows session post) (second : Ends ids name rows session other) :
    Ends ids name rows session fun result after => post result after ∧ other result after := by
  intro store source known
  rcases first store source known with ⟨result, last, next, after, run, reached, holds⟩
  rcases second store source known with ⟨_, _, _, _, same, found, also⟩
  rw [run] at same
  cases same
  rw [reached] at found
  cases found
  exact ⟨result, last, next, after, run, reached, holds, also⟩

/-- A session goes on from the rows that its first part leaves, or ends with
the error of that part. -/
theorem bind {rest : α → Session β} (first : Ends ids name rows session post)
    (second : ∀ value after, post (.ok value) after → Ends ids name after (rest value) last)
    (failed : ∀ error after, post (.error error) after → last (.error error) after) :
    Ends ids name rows (session >>= rest) last := by
  intro store source known
  rcases first store source known with ⟨result, middle, next, after, run, rows, holds⟩
  rw [Session.run_bind, run]
  cases result with
  | error error => exact ⟨.error error, middle, next, after, rfl, rows, failed error after holds⟩
  | ok value => exact second value after holds middle next rows

/-- A computation without calls leaves the rows alone. -/
theorem lift {computation : Except Error α} {rest : α → Session β}
    (second : ∀ value, computation = .ok value → Ends ids name rows (rest value) last)
    (failed : ∀ error, computation = .error error → last (.error error) rows) :
    Ends ids name rows ((liftM computation : Session α) >>= rest) last := by
  cases computation with
  | error error => exact done (failed error rfl)
  | ok value => exact second value rfl

theorem freshId {next : String → Session α} (each : ∀ id, Ends ids name rows (next id) post) :
    Ends ids name rows (.freshId next) post := by
  intro store source known
  exact each (ids source).1 store (ids source).2 known

end Session.Ends

namespace Session

variable {session : Session α} {rest : α → Session β}
variable {last : Except Error β → List Sql.Value → Prop}

theorem Reads.pure {found : α → Prop} {value : α} (holds : found value) :
    Reads ids name rows (Pure.pure value) found := by
  apply Ends.pure
  constructor
  · rfl
  · intro own same
    cases same
    exact holds

theorem Reads.bind {found : α → Prop} (first : Reads ids name rows session found)
    (second : ∀ value, found value → Ends ids name rows (rest value) last)
    (failed : ∀ error, last (.error error) rows) : Ends ids name rows (session >>= rest) last := by
  apply Ends.bind first
  · intro value after outcome
    rcases outcome with ⟨rfl, holds⟩
    exact second value (holds value rfl)
  · intro error after outcome
    rcases outcome with ⟨rfl, -⟩
    exact failed error

theorem Leaves.bind {value : α} {after : List Sql.Value}
    (first : Leaves ids name rows session value after)
    (second : Ends ids name after (rest value) last) :
    Ends ids name rows (session >>= rest) last := by
  apply Ends.bind first
  · intro own behind outcome
    rcases outcome with ⟨returned, rfl⟩
    cases returned
    exact second
  · intro error behind outcome
    rcases outcome with ⟨impossible, -⟩
    cases impossible

end Session

/-! ## Calls -/

namespace MemoryStore

theorem rows?_setRows {store : MemoryStore} (known : store.rows? name = some rows)
    (after : List Sql.Value) : (store.setRows name after).rows? name = some after := by
  rcases store with ⟨tables⟩
  simp only [rows?, setRows] at known ⊢
  induction tables with
  | nil => simp at known
  | cons table rest ih =>
      by_cases same : sameName name table.name = true
      · simp [same]
      · simp only [Bool.not_eq_true] at same
        simp only [List.find?_cons, same] at known
        simp only [List.map_cons, same, Bool.false_eq_true, if_false, List.find?_cons]
        exact ih known

theorem stableSort_eq (elements : List α) : stableSort (fun _ _ => .eq) elements = elements := by
  have fold (sorted : List α) :
      elements.foldl
          (fun sorted element => insertDescending (fun _ _ => .eq) element sorted) sorted =
        elements.reverse ++ sorted := by
    induction elements generalizing sorted with
    | nil => rfl
    | cons element rest ih =>
        have front : insertDescending (fun _ _ => .eq) element sorted = element :: sorted := by
          cases sorted <;> rfl
        rw [List.foldl_cons, front, ih]
        simp
  rw [stableSort, fold, List.append_nil, List.reverse_reverse]

theorem select_all (rows : List Sql.Value) :
    select rows (.constant true) (some []) none none = rows.map fun row => [row.asRead] := by
  have unsorted : (fun left right : Sql.Value => Document.compareBy []
      (left.document?.getD ∅) (right.document?.getD ∅)) = fun _ _ => .eq := rfl
  have all : rows.filter (Sql.Predicate.choosesRow (.constant true)) = rows := by
    simp [Sql.Predicate.choosesRow]
  simp only [select, unsorted, stableSort_eq, all, Option.getD_none, List.drop_zero]

/-- The answer to a call that reads all rows. -/
theorem query_all {store : MemoryStore} (known : store.rows? name = some rows)
    (statement : Sql.Statement) :
    store.query ⟨name, .select (.constant true) (some []) none none, statement⟩ =
      if isReadable name then .ok (rows.map fun row => [row.asRead])
      else .error (.execution .unreadable) := by
  unfold query
  cases isReadable name with
  | false => rfl
  | true =>
      simp only [known, select_all]
      rfl

end MemoryStore

open Session

/-- A command that changes the rows of a table, given to a table whose name an
engine can read. -/
theorem Collection.run_execute (ids : IdSource ι) {command : Sql.Command}
    {statement : Sql.Statement} {affected : Nat} {after : List Sql.Value} {store : MemoryStore}
    (known : store.rows? name = some rows)
    (readable : MemoryStore.isReadable name = true)
    (printed : command.call .text name = .ok ⟨name, command, statement⟩)
    (carried : MemoryStore.affect rows command = .ok (affected, after))
    (existing : command ≠ .createTable ∧ command ≠ .dropTable) (source : ι) :
    (execute ⟨name, .text⟩ command).run Engine.memory ids store source =
      (.ok affected, store.setRows name after, source) := by
  have executed : store.execute ⟨name, command, statement⟩ =
      .ok (affected, store.setRows name after) := by
    unfold MemoryStore.execute
    cases command with
    | createTable | dropTable => simp at existing
    | _ =>
        simp only [readable, known, carried]
        rfl
  have session : execute ⟨name, .text⟩ command =
      .execute ⟨name, command, statement⟩ Pure.pure := by
    unfold execute
    rw [printed]
    rfl
  have answered : Engine.memory.execute ⟨name, command, statement⟩ store =
      (.ok affected, store.setRows name after) := by
    simp only [Engine.memory, executed]
  rw [session, Session.run, answered]
  rfl

theorem leaves_execute {command : Sql.Command} {statement : Sql.Statement} {affected : Nat}
    {after : List Sql.Value} (readable : MemoryStore.isReadable name = true)
    (printed : command.call .text name = .ok ⟨name, command, statement⟩)
    (carried : MemoryStore.affect rows command = .ok (affected, after))
    (existing : command ≠ .createTable ∧ command ≠ .dropTable) :
    Leaves ids name rows (Collection.execute ⟨name, .text⟩ command) affected after := by
  intro store source known
  have run := Collection.run_execute ids known readable printed carried existing source
  exact ⟨_, _, _, after, run, MemoryStore.rows?_setRows known after, rfl, rfl⟩

/-- A call that reads all rows is answered with them, if an engine can read the
name of the table. -/
theorem ends_query {statement : Sql.Statement} {next : List Sql.Row → Session α}
    {post : Except Error α → List Sql.Value → Prop}
    (answered : MemoryStore.isReadable name = true →
      Ends ids name rows (next (rows.map fun row => [row.asRead])) post)
    (refused : ∀ error, post (.error error) rows) :
    Ends ids name rows
      (.query ⟨name, .select (.constant true) (some []) none none, statement⟩ next) post := by
  intro store source known
  rw [Session.run]
  have answer := MemoryStore.query_all known statement
  cases readable : MemoryStore.isReadable name with
  | false =>
      rw [readable, if_neg Bool.false_ne_true] at answer
      simp only [Engine.memory, answer]
      exact ⟨_, store, source, rows, rfl, known, refused _⟩
  | true =>
      rw [readable, if_pos rfl] at answer
      simp only [Engine.memory, answer]
      exact answered readable store source known

/-- The test of documents that a filter stands for. -/
def Filter.rowTest : Filter → Except Error RowTest
  | .predicate test => pure (.function test)
  | .declarative filter => .condition <$> Condition.ofDocument filter

theorem Filter.choice_text (filter : Filter) :
    filter.choice .text = (fun test => ⟨.constant true, some test⟩) <$> filter.rowTest := by
  cases filter with
  | predicate test => rfl
  | declarative filter =>
      rw [Filter.choice, Filter.rowTest]
      cases Condition.ofDocument filter <;> rfl

/-- A search of a table of texts reads all rows and tests them in process. -/
theorem FindPlan.build_text {filter : Filter} {options : FindOptions} {plan : FindPlan}
    (built : FindPlan.build .text name filter options = .ok plan) :
    ∃ test sort statement, filter.rowTest = .ok test ∧ sortTerms options.sortKeys = .ok sort ∧
      plan.call = ⟨name, .select (.constant true) (some []) none none, statement⟩ ∧
      plan.scan = some ⟨test, sort, options.effectiveSkip.getD 0, options.effectiveLimit⟩ := by
  unfold FindPlan.build at built
  rw [Filter.choice_text] at built
  rcases exists_of_bind_eq_ok built with ⟨projection, -, built⟩
  rcases exists_of_bind_eq_ok built with ⟨sort, sorted, built⟩
  cases tested : filter.rowTest with
  | error error =>
      rw [tested] at built
      cases built
  | ok test =>
      rw [tested] at built
      cases built
      exact ⟨test, sort, _, rfl, sorted, rfl, rfl⟩

/-- A search leaves the rows alone, and its cursor scans all of them. -/
theorem reads_find (filter : Filter) (options : FindOptions) :
    Reads ids name rows (Collection.find ⟨name, .text⟩ filter options) fun cursor =>
      MemoryStore.isReadable name = true ∧ ∃ test sort projection, filter.rowTest = .ok test ∧
        sortTerms options.sortKeys = .ok sort ∧
        cursor = ⟨rows.map Sql.Value.asRead,
          some (Scan.start ⟨test, sort, options.effectiveSkip.getD 0, options.effectiveLimit⟩),
          projection, false⟩ := by
  unfold Collection.find
  apply Ends.lift
  · intro plan built
    rcases FindPlan.build_text built with ⟨test, sort, statement, tested, sorted, call, scan⟩
    rw [call]
    apply ends_query
    · intro readable
      apply Reads.pure
      refine ⟨readable, test, sort, plan.projection, tested, sorted, ?_⟩
      rw [Cursor.ofRows, scan, List.map_map]
      rfl
    · intro error
      exact ⟨rfl, nofun⟩
  · intro error failed
    exact ⟨rfl, nofun⟩

/-- Reading the chosen rows leaves them alone. If none of the rows up to the
limit is unreadable, the chosen ones are returned. -/
theorem reads_snapshot (filter : Filter) (limit : Option Nat) :
    Reads ids name rows (Collection.snapshot ⟨name, .text⟩ filter limit) fun chosen =>
      MemoryStore.isReadable name = true ∧ ∃ test, filter.rowTest = .ok test ∧
        (Scan.handedOut test 0 (limit.filter (0 < ·)) (rows.map Sql.Value.asRead)).mapM id =
          .ok chosen := by
  unfold Collection.snapshot
  apply (reads_find filter { limit }).bind
  · intro cursor found
    rcases found with ⟨readable, test, sort, projection, tested, sorted, rfl⟩
    cases sorted
    apply Ends.done
    constructor
    · rfl
    · intro chosen read
      refine ⟨readable, test, tested, ?_⟩
      rw [Cursor.allRows, Cursor.drainRows_scan _ _ _ rfl] at read
      exact read
  · intro error
    exact ⟨rfl, nofun⟩

theorem Condition.ofDocument_id (id : String) :
    Condition.ofDocument ⟨[(idField, .string id)]⟩ = .ok (.compare Sql.idPath .eq (.string id)) :=
  rfl

/-- A document passes the test of an id exactly if it carries the id. -/
theorem Document.holds_id_iff {document : Document} {id : String} :
    (Condition.compare Sql.idPath .eq (.string id)).holds document = true ↔
      document.id? = some id := by
  have segments : Sql.idPath.segments = [idField] := rfl
  rw [Condition.holds, Document.lookup?, segments, Json.lookup?_cons_object, Document.id?]
  cases document.get? idField with
  | none => simp
  | some value => cases value <;> simp [Scalar.compare?, Comparison.holds]

theorem reads_isTaken (id : String) :
    Reads ids name rows (Collection.isTaken ⟨name, .text⟩ id) fun taken => taken = false →
      MemoryStore.isReadable name = true ∧
        ∀ row ∈ rows, ∀ document, row.document? = some document → ¬document.Stamped id := by
  unfold Collection.isTaken
  apply (reads_find (.declarative ⟨[(idField, .string id)]⟩) {}).bind
  · intro cursor found
    rcases found with ⟨readable, test, sort, projection, tested, sorted, rfl⟩
    rw [Filter.rowTest, Condition.ofDocument_id] at tested
    cases tested
    cases sorted
    apply Reads.pure
    intro free
    refine ⟨readable, ?_⟩
    intro row member document decoded stamped
    rcases Sql.Value.document?_eq_some_iff.1 decoded with ⟨raw, read, decoded⟩
    have chosen : RowTest.chosen? (.condition (.compare Sql.idPath .eq (.string id))) row.asRead =
        some ⟨raw, document⟩ :=
      RowTest.chosen?_eq_some_iff.2
        ⟨StoredRow.ofValue_eq_ok_iff.2 ⟨read, decoded⟩, Document.holds_id_iff.2 stamped.id?_eq⟩
    have handed := Scan.mem_handedOut_all (List.mem_map_of_mem member) chosen
    rw [Cursor.drainRows_scan _ _ _ rfl, List.any_eq_false] at free
    exact free _ handed rfl
  · intro error
    exact ⟨rfl, nofun⟩

end DocTable
