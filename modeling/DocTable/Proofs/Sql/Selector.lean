import DocTable.Engine.Memory
import DocTable.Proofs.Sql.Pushdown
import DocTable.Proofs.Sql.ValueOrder

/-!
# Row keys read back

The condition by which a row is found again is read as an equality: of the column
and the text of the row, or of the id in the document and the id of the key. SQLite
finds it true of the rows that have the key and of no others, so a table in memory
may go by the key alone.
-/

namespace DocTable.Sql

namespace RowKey

/-- The expression that the condition of a key is meant to be. A dialect without JSON
functions has none for an id. -/
def expression? (dialect : Dialect) : RowKey → Option Expression
  | .id value => dialect.json?.map fun engine =>
      .compare .eq (engine.extracted idPath) (engine.literal (.string value))
  | .text stored => some (.compare .eq (.column documentColumn) (.parameter (.text stored)))

/-- The condition of a key is read as its expression, and there is none where it has none. -/
theorem condition_cases (dialect : Dialect) (key : RowKey) :
    (∃ fragment expression, key.condition dialect = .ok fragment ∧
        key.expression? dialect = some expression ∧
        Fragment.ReadsTest dialect fragment expression) ∨
      key.condition dialect = .error (.compilation (.noPaths dialect)) ∧
        key.expression? dialect = none := by
  cases key with
  | text stored =>
      have column := @Fragment.ReadsOperand.identifier dialect documentColumn
      have own : Fragment.ReadsOperand dialect [.parameter .plain (.text stored)]
          (.parameter (.text stored)) := by
        have parameter := Fragment.ReadsOperand.parameter dialect .plain (.text stored)
        rcases dialect with (_ | _ | _) | _ <;> exact parameter
      exact .inl ⟨_, _, rfl, rfl, Fragment.ReadsTest.compare column own .eq⟩
  | id value =>
      cases dialect with
      | text => exact .inr ⟨rfl, rfl⟩
      | json dialect =>
          have extraction := JsonDialect.readsOperand_extraction idPath dialect
          have literal := Fragment.ReadsOperand.literal dialect (.string value)
          exact .inl ⟨_, _, rfl, rfl, Fragment.ReadsTest.compare extraction literal .eq⟩

/-- An engine that compares strings as they are tells the ids of two documents apart. -/
theorem truth_id {dialect : JsonDialect} {engine : Engine} (supported : dialect.SupportedBy engine)
    {document : Document} {own : String} (found : document.get? idField = some (.string own))
    (value : String) :
    ∃ expression, (RowKey.id value).expression? (.json dialect) = some expression ∧
      expression.truth (engine document) = some (own == value) := by
  have compared : (document.lookup? idPath).bind (Scalar.compare? · (.string value)) =
      some (Ord.compare own value) := by
    rw [Document.lookup?, idPath]
    change ((document.get? idField).bind (Json.lookup? [])).bind _ = _
    rw [found]
    rfl
  refine ⟨_, rfl, ?_⟩
  rw [truth_compare, supported.order document idPath .eq _ _ compared]
  by_cases same : own = value
  · simp [same, Comparison.holds]
  · simp [same, Comparison.holds]

end RowKey

namespace Sqlite

/-- The truth values of the tests of a row. The column is compared as it is stored; what looks
into a document is unknown where the row holds none. -/
def rowTruth (stored : Value) : Expression → Truth
  | .compare comparison (.column _) (.parameter bound) =>
      if stored = .null ∨ bound = .null then none
      else some (comparison.holds (order stored bound))
  | test => stored.document?.bind (engine · test)

theorem order_text_eq_iff (stored : Value) (text : String) :
    order stored (.text text) = .eq ↔ stored = .text text := by
  have apart {other : Value} (class_ne : storageClass other ≠ storageClass (.text text)) :
      order other (.text text) ≠ .eq := by
    rcases Nat.lt_or_gt_of_ne class_ne with less | greater
    · rw [(order_of_storageClass_lt less).1]
      decide
    · rw [(order_of_storageClass_lt greater).2]
      decide
  cases stored with
  | text own => rw [order_text, Std.compare_eq_iff_eq, Value.text.injEq]
  | null => exact iff_of_false (apart Nat.zero_lt_two.ne) nofun
  | integer _ | real _ => exact iff_of_false (apart (Nat.lt_add_one 1).ne) nofun
  | blob _ => exact iff_of_false (apart (Nat.lt_add_one 2).ne') nofun

theorem rowTruth_text (stored : Value) (raw : String) :
    rowTruth stored (.compare .eq (.column documentColumn) (.parameter (.text raw))) = some true ↔
      (RowKey.text raw).isOf stored = true := by
  rw [rowTruth, RowKey.isOf, beq_iff_eq]
  by_cases null : stored = .null
  · subst null
    exact iff_of_false nofun nofun
  · rw [if_neg (by simp [null]), Option.some_inj, Comparison.holds, beq_iff_eq, order_text_eq_iff]

theorem rowTruth_id (stored : Value) (value : String) :
    rowTruth stored (.compare .eq (JsonDialect.sqlite.extracted idPath)
        (.parameter (.text value))) = some true ↔
      (RowKey.id value).isOf stored = true := by
  change (stored.document?.bind fun document =>
    ((valueAt document (JsonDialect.pathNotation idPath)).bind (order? · (.text value))).map
      (Comparison.holds .eq)) = _ ↔ _
  rw [RowKey.isOf, beq_iff_eq]
  cases stored.document? with
  | none => simp
  | some document =>
      rw [Option.bind_some, Option.bind_some, valueAt_pathNotation, Document.id?]
      change ((((document.get? idField).bind (Json.lookup? [])).bind _).map _) = _ ↔ _
      cases document.get? idField with
      | none => simp
      | some own => cases own <;> simp [order?, Comparison.holds]

end Sqlite

/-- The text by which a row is found again is read with its parameter as a test that SQLite, with
its JSON functions or without them, finds true of the rows that have the key. -/
theorem RowKey.condition_isOf {dialect : Dialect}
    (isSqlite : dialect = .json .sqlite ∨ dialect = .text) (key : RowKey) :
    Ensures (fun fragment => ∃ test : Expression,
        (∀ before after, Expression.read? dialect (before ++ fragment.parameters ++ after)
          before.length (String.ofList (fragment.chars dialect before.length)) = some test) ∧
        ∀ stored, test.truth (Sqlite.rowTruth stored) = some true ↔ key.isOf stored = true)
      (key.condition dialect) := by
  constructor
  intro fragment printed
  rcases key.condition_cases dialect with ⟨own, test, ownPrinted, isTest, reads⟩ | ⟨refused, -⟩
  · cases printed.symm.trans ownPrinted
    refine ⟨test, reads.read?_eq, fun stored => ?_⟩
    cases key with
    | text raw =>
        cases isTest
        exact Sqlite.rowTruth_text stored raw
    | id value =>
        rcases isSqlite with rfl | rfl
        · cases isTest
          exact Sqlite.rowTruth_id stored value
        · cases isTest
  · cases printed.symm.trans refused

end DocTable.Sql
