import DocTable.Plan
import DocTable.Proofs.Sql.Pushdown
import DocTable.Proofs.Sql.Search

/-!
# One choice of rows

Counting, deleting, searching and compiling a filter on its own choose the same
rows. They agree about who does the test; if the engine does it, all of them
send the same text and the same values for it, and if not, they leave the same
test to be done on each row. A filter that one of them refuses is refused by all
with one error.
-/

namespace DocTable

open Sql

/-- A filter is carried out in one of two ways: every row is read and tested, or
an engine that looks inside documents tests a condition. -/
theorem Filter.choice_cases {dialect : Dialect} {filter : Filter} {choice : RowChoice}
    (chosen : filter.choice dialect = .ok choice) :
    (∃ test, choice = ⟨.constant true, some test⟩) ∨
      ∃ engine document condition, dialect = .json engine ∧ filter = .declarative document ∧
        Condition.ofDocument document = .ok condition ∧
        choice = ⟨condition.toPredicate, none⟩ := by
  cases filter with
  | predicate test =>
      cases chosen
      exact .inl ⟨_, rfl⟩
  | declarative document =>
      rw [Filter.choice] at chosen
      cases read : Condition.ofDocument document with
      | error error =>
          rw [read] at chosen
          cases chosen
      | ok condition =>
          rw [read] at chosen
          cases dialect with
          | text =>
              cases chosen
              exact .inl ⟨_, rfl⟩
          | json engine =>
              cases chosen
              exact .inr ⟨engine, document, condition, rfl, rfl, read, rfl⟩

theorem Filter.exists_fragment {dialect : Dialect} {filter : Filter} {choice : RowChoice}
    (chosen : filter.choice dialect = .ok choice) :
    ∃ fragment, choice.predicate.fragment dialect = .ok fragment := by
  rcases filter.choice_cases chosen with
    ⟨test, rfl⟩ | ⟨engine, document, condition, rfl, -, read, rfl⟩
  · exact ⟨_, rfl⟩
  · have regular := Condition.regular_of_ofDocument read
    have printable := printable_toPredicate condition regular
    rcases Predicate.exists_fragment engine condition.toPredicate printable with
      ⟨fragment, printed, -⟩
    exact ⟨fragment, printed⟩

theorem Filter.whereClause_of_choice_error {dialect : Dialect} {filter : Filter} {error : Error}
    (failed : filter.choice dialect = .error error) :
    filter.whereClause dialect = .error error := by
  rw [whereClause, failed]
  rfl

theorem Filter.whereClause_of_choice {dialect : Dialect} {filter : Filter} {choice : RowChoice}
    (chosen : filter.choice dialect = .ok choice) {fragment : Fragment}
    (printed : choice.predicate.fragment dialect = .ok fragment) :
    filter.whereClause dialect = .ok (fragment.statement dialect, choice.rowTest) := by
  rw [whereClause, chosen]
  exact congrArg (· >>= fun text => pure (text.statement dialect, choice.rowTest)) printed

/-- The counts of a search are signed numbers of 64 bits. -/
structure FindOptions.Bounded (options : FindOptions) : Prop where
  limit : ∀ count ∈ options.limit, count < 0x8000000000000000
  skip : ∀ count ∈ options.skip, count < 0x8000000000000000

/-- The paths of a search can be read, and its counts can be bound. -/
structure FindOptions.Valid (options : FindOptions) : Prop where
  projection : ∃ projection, options.projection.mapM ProjectionRequest.resolve = .ok projection
  sort : ∃ terms, sortTerms options.sortKeys = .ok terms
  bounded : options.Bounded

namespace FindOptions.Bounded

variable {options : FindOptions} (bounded : options.Bounded)

include bounded

theorem effectiveLimit : ∀ count ∈ options.effectiveLimit, count < 0x8000000000000000 := by
  intro count member
  exact bounded.limit count (Option.mem_filter_iff.1 member).1

theorem effectiveSkip : ∀ count ∈ options.effectiveSkip, count < 0x8000000000000000 := by
  intro count member
  exact bounded.skip count (Option.mem_filter_iff.1 member).1

end FindOptions.Bounded

theorem Sql.Command.exists_call {dialect : Dialect} {table : String} {command : Command}
    {statement : Statement} (written : command.statement dialect table = .ok statement) :
    ∃ call, command.call dialect table = .ok call ∧ call.statement = statement := by
  refine ⟨⟨table, command, statement⟩, ?_, rfl⟩
  rw [call, written]
  rfl

/-- The statement of a search continues the text of the predicate, and the test
that remains is done on each row. Only an engine that tests itself is given the
counts. -/
theorem FindPlan.exists_build {dialect : Dialect} (table : String) {filter : Filter}
    {options : FindOptions} (valid : options.Valid) {choice : RowChoice}
    (chosen : filter.choice dialect = .ok choice) {fragment : Fragment}
    (printed : choice.predicate.fragment dialect = .ok fragment) :
    ∃ plan, build dialect table filter options = .ok plan ∧
      plan.scan.map ScanPlan.test = choice.rowTest ∧
      plan.call.statement.Continues ((searchHead dialect table).text dialect)
        (fragment.statement dialect)
        (if choice.rowTest.isSome then []
          else Dialect.countValues options.effectiveLimit options.effectiveSkip) := by
  rcases valid.projection with ⟨projection, resolved⟩
  rcases valid.sort with ⟨terms, sorted⟩
  rcases filter.choice_cases chosen with
    ⟨test, rfl⟩ | ⟨engine, document, condition, rfl, -, -, rfl⟩
  · have ordered : ∀ order ∈ some [], ∃ clause, dialect.orderClause order = .ok clause := by
      rintro order ⟨⟩
      exact dialect.exists_orderClause_nil
    have unbounded : ∀ count ∈ (none : Option Nat), count < 0x8000000000000000 := nofun
    rcases Command.exists_statement_select table printed ordered unbounded unbounded with
      ⟨statement, written, continues⟩
    rcases Command.exists_call written with ⟨call, called, rfl⟩
    let scan : ScanPlan := ⟨test, terms, options.effectiveSkip.getD 0, options.effectiveLimit⟩
    let planned (call : Call) : Except Error FindPlan := pure ⟨call, some scan, projection⟩
    have built : build dialect table filter options = planned call := by
      rw [build, resolved, sorted, chosen]
      exact congrArg (· >>= planned) called
    exact ⟨_, built, rfl, continues⟩
  · have ordered : ∀ order ∈ (if terms.isEmpty then none else some terms),
        ∃ clause, (Dialect.json engine).orderClause order = .ok clause := by
      intro order _
      exact Dialect.exists_orderClause engine order
    rcases Command.exists_statement_select table printed ordered valid.bounded.effectiveLimit
      valid.bounded.effectiveSkip with ⟨statement, written, continues⟩
    rcases Command.exists_call written with ⟨call, called, rfl⟩
    let planned (call : Call) : Except Error FindPlan := pure ⟨call, none, projection⟩
    have built : build (.json engine) table filter options = planned call := by
      rw [build, resolved, sorted, chosen]
      exact congrArg (· >>= planned) called
    exact ⟨_, built, rfl, continues⟩

theorem FindPlan.build_of_choice_error {dialect : Dialect} (table : String) {filter : Filter}
    {options : FindOptions} (valid : options.Valid) {error : Error}
    (failed : filter.choice dialect = .error error) :
    build dialect table filter options = .error error := by
  rcases valid.projection with ⟨projection, resolved⟩
  rcases valid.sort with ⟨terms, sorted⟩
  rw [build, resolved, sorted, failed]
  rfl

/-- For every dialect, table, filter and all valid options, the clause of the
filter decides what is planned: its error is that of every plan; the test that
remains behind it remains behind a search, and then nothing is compiled,
counted or deleted by the engine; and if none remains, its text and its values
stand behind the beginning of every statement, and only the clauses of a search
follow them. -/
theorem Filter.planned_alike (dialect : Dialect) (table : String) (filter : Filter)
    {options : FindOptions} (valid : options.Valid) :
    match filter.whereClause dialect with
    | .error error =>
        filter.compile dialect = .error error ∧
          filter.callWhere? dialect table .count = .error error ∧
          filter.callWhere? dialect table .deleteWhere = .error error ∧
          FindPlan.build dialect table filter options = .error error
    | .ok (clause, some test) =>
        filter.compile dialect = .ok none ∧
          filter.callWhere? dialect table .count = .ok none ∧
          filter.callWhere? dialect table .deleteWhere = .ok none ∧
          ∃ plan, FindPlan.build dialect table filter options = .ok plan ∧
            plan.scan.map ScanPlan.test = some test ∧
            plan.call.statement.Continues ((searchHead dialect table).text dialect) clause []
    | .ok (clause, none) =>
        filter.compile dialect = .ok (some clause) ∧
          Option.map Call.statement <$> filter.callWhere? dialect table .count =
            .ok (some ⟨(countHead table).text dialect ++ clause.sql, clause.parameters⟩) ∧
          Option.map Call.statement <$> filter.callWhere? dialect table .deleteWhere =
            .ok (some ⟨(deleteHead table).text dialect ++ clause.sql, clause.parameters⟩) ∧
          ∃ plan, FindPlan.build dialect table filter options = .ok plan ∧ plan.scan = none ∧
            plan.call.statement.Continues ((searchHead dialect table).text dialect) clause
              (Dialect.countValues options.effectiveLimit options.effectiveSkip) := by
  cases chosen : filter.choice dialect with
  | error error =>
      have clause := whereClause_of_choice_error chosen
      have call (command : Predicate → Command) :
          filter.callWhere? dialect table command = .error error := by
        rw [callWhere?, chosen]
        rfl
      simp only [compile_eq_whereClause, clause]
      exact ⟨rfl, call _, call _, FindPlan.build_of_choice_error table valid chosen⟩
  | ok choice =>
      rcases filter.exists_fragment chosen with ⟨fragment, printed⟩
      rcases FindPlan.exists_build table valid chosen printed with ⟨plan, built, test, continues⟩
      have clause := whereClause_of_choice chosen printed
      rcases choice with ⟨predicate, rowTest⟩
      cases rowTest with
      | some rowTest =>
          have call (command : Predicate → Command) :
              filter.callWhere? dialect table command = .ok none := by
            rw [callWhere?, chosen]
            rfl
          simp only [compile_eq_whereClause, clause]
          exact ⟨rfl, call _, call _, plan, built, test, continues⟩
      | none =>
          have call {command : Predicate → Command} {statement : Statement}
              (written : (command predicate).statement dialect table = .ok statement) :
              Option.map Call.statement <$> filter.callWhere? dialect table command =
                .ok (some statement) := by
            rcases Command.exists_call written with ⟨call, called, rfl⟩
            have sent : filter.callWhere? dialect table command = .ok (some call) := by
              rw [callWhere?, chosen]
              exact congrArg (· >>= fun call => pure (some call)) called
            rw [sent]
            rfl
          simp only [compile_eq_whereClause, clause]
          exact ⟨rfl, call (Command.statement_count table printed),
            call (Command.statement_deleteWhere table printed), plan, built,
            Option.map_eq_none_iff.1 test, continues⟩

/-- A search by name with an order and a limit sends the clause that the filter
is compiled to, and binds the limit behind its values. -/
theorem Filter.planned_alike_of_name :
    FindOptions.Valid { sort := some [⟨"age", .asc⟩], limit := some 2 } ∧
      ∃ clause plan,
        Filter.compile (.json .postgres) (.declarative ⟨[("name", .string "x")]⟩) =
          .ok (some clause) ∧
        FindPlan.build (.json .postgres) "t" (.declarative ⟨[("name", .string "x")]⟩)
          { sort := some [⟨"age", .asc⟩], limit := some 2 } = .ok plan ∧
        plan.call.statement.parameters = clause.parameters ++ [.integer 2] := by
  have valid : FindOptions.Valid { sort := some [⟨"age", .asc⟩], limit := some 2 } :=
    ⟨⟨_, rfl⟩, ⟨_, rfl⟩, ⟨by simp, nofun⟩⟩
  rcases planned_alike (.json .postgres) "t" (.declarative ⟨[("name", .string "x")]⟩) valid with
    ⟨compiled, -, -, plan, built, -, continues⟩
  exact ⟨valid, _, plan, compiled, built, continues.parameters_eq⟩

end DocTable
