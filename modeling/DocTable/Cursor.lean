import DocTable.Plan

/-!
# Cursors

A cursor hands out the documents of a search one by one. Rows are decoded when they are reached,
and one that holds no document is handed out as an error in its place; only a scan that sorts has
to decode all rows first and stops at the first bad one.
-/

namespace DocTable

/-- A decoded row and the exact text it is stored as. -/
structure StoredRow where
  raw : String
  document : Document
deriving Repr

/-- Decodes the value of the document column. -/
def StoredRow.ofValue : Sql.Value → Except Error StoredRow
  | .text raw =>
    match Document.decode raw with
    | .ok document => pure ⟨raw, document⟩
    | .error cause => throw (.decode cause)
  | .blob bytes => throw (.decode (.notText bytes.length))
  | other => throw (.decode (.notColumnText other))

/-- The progress of a scan. -/
structure Scan where
  plan : ScanPlan
  /-- How many passing rows are still to be left out. -/
  skip : Nat
  /-- How many rows may still be handed out, if there is a limit. -/
  remaining : Option Nat
  /-- The sorted rows that are still to be handed out, once all rows have been read. -/
  sorted : Option (List StoredRow)

/-- A scan that has not begun. -/
def Scan.start (plan : ScanPlan) : Scan := ⟨plan, plan.skip, plan.limit, none⟩

/-- A cursor over the rows of a search. -/
structure Cursor where
  /-- The rows that have not been taken yet. -/
  rows : List Sql.Value
  /-- The progress of a scan; the engine has done the whole search where there is none. -/
  scan : Option Scan
  /-- The parts of the documents to return. -/
  projection : Option Projection
  /-- Whether the end has been reached or the cursor has been closed. -/
  closed : Bool

namespace Cursor

/-- What a cursor hands out. -/
abbrev Item (α : Type) : Type := Except Error α

/-- The cursor over the rows that answer the call of a plan. -/
def ofRows (plan : FindPlan) (rows : List Sql.Row) : Cursor where
  rows := rows.map fun row => row.head?.getD .null
  scan := plan.scan.map Scan.start
  projection := plan.projection
  closed := false

/-- Whether the engine does the whole search. -/
def isPushdown (cursor : Cursor) : Bool := cursor.scan.isNone

/-- Drops what has not been handed out. -/
def close (cursor : Cursor) : Cursor :=
  if cursor.closed then cursor else { cursor with rows := [], scan := none, closed := true }

/-- The number of rows that have not been taken yet. -/
def pending (cursor : Cursor) : Nat := cursor.rows.length

/-- The state of a cursor in diagnostics. -/
def diagnostic (cursor : Cursor) : String :=
  s!"Cursor \x7b pending: {cursor.pending}, pushdown: {cursor.isPushdown}, " ++
    s!"closed: {cursor.closed} \x7d"

end Cursor

namespace Scan

/-- The next row of an unsorted scan, with the scan and the rows that are left. -/
def nextStreaming (scan : Scan) : List Sql.Value →
    Option (Except Error StoredRow) × Scan × List Sql.Value
  | [] => (none, scan, [])
  | value :: rest =>
    match StoredRow.ofValue value with
    | .error error => (some (.error error), scan, rest)
    | .ok row =>
      if !scan.plan.test.accepts row.document then nextStreaming scan rest
      else if 0 < scan.skip then nextStreaming { scan with skip := scan.skip - 1 } rest
      else (some (.ok row), { scan with remaining := scan.remaining.map (· - 1) }, rest)

/-- The rows that pass the test, or the first error and the rows behind it. -/
def passing (test : RowTest) : List Sql.Value → Except (Error × List Sql.Value) (List StoredRow)
  | [] => pure []
  | value :: rest =>
    match StoredRow.ofValue value with
    | .error error => throw (error, rest)
    | .ok row => do
      let more ← passing test rest
      return if test.accepts row.document then row :: more else more

/-- The rows of a sorted scan in the order in which they are handed out. -/
def arrange (plan : ScanPlan) (rows : List StoredRow) : List StoredRow :=
  let sorted := stableSort (fun left right =>
    Document.compareBy plan.sort left.document right.document) rows
  let rest := sorted.drop plan.skip
  match plan.limit with
  | some limit => rest.take limit
  | none => rest

/-- Hands out the first of the sorted rows. -/
def pop (scan : Scan) (rows : List Sql.Value) :
    List StoredRow → Option (Except Error StoredRow) × Scan × List Sql.Value
  | [] => (none, { scan with sorted := some [] }, rows)
  | first :: rest => (some (.ok first), { scan with sorted := some rest }, rows)

/-- The next row of a scan, with the scan and the rows that are left. -/
def next (scan : Scan) (rows : List Sql.Value) :
    Option (Except Error StoredRow) × Scan × List Sql.Value :=
  if scan.plan.sort.isEmpty then
    if scan.remaining = some 0 then (none, scan, rows) else scan.nextStreaming rows
  else match scan.sorted with
    | some sorted => scan.pop rows sorted
    | none =>
      match passing scan.plan.test rows with
      | .error (error, rest) => (some (.error error), { scan with sorted := some [] }, rest)
      | .ok matched => scan.pop [] (arrange scan.plan matched)

end Scan

namespace Cursor

/-- The next row and the cursor behind it; at the end the cursor closes. -/
def nextRow (cursor : Cursor) : Option (Item StoredRow) × Cursor :=
  if cursor.closed then (none, cursor)
  else
    let (item, next) : Option (Item StoredRow) × Cursor := match cursor.scan with
      | none =>
        match cursor.rows with
        | [] => (none, cursor)
        | first :: rest => (some (StoredRow.ofValue first), { cursor with rows := rest })
      | some scan =>
        let (item, scan, rows) := scan.next cursor.rows
        (item, { cursor with rows, scan := some scan })
    (item, if item.isNone then next.close else next)

/-- The document of a row as it is returned. -/
def present (cursor : Cursor) (row : StoredRow) : Document :=
  match cursor.projection with
  | some projection => projection.apply row.document
  | none => row.document

/-- The next document and the cursor behind it. -/
def advance (cursor : Cursor) : Option (Item Document) × Cursor :=
  let (item, next) := cursor.nextRow
  (item.map (·.map cursor.present), next)

/-- How many rows a cursor holds, whether sorted or not taken yet. -/
def size (cursor : Cursor) : Nat :=
  cursor.rows.length + ((cursor.scan.bind Scan.sorted).getD []).length

end Cursor

namespace Scan

theorem length_of_passing {test : RowTest} {rows : List Sql.Value} {matched : List StoredRow}
    (result : passing test rows = .ok matched) : matched.length ≤ rows.length := by
  induction rows generalizing matched with
  | nil =>
    cases result
    exact Nat.le_refl 0
  | cons value rest ih =>
    rw [passing] at result
    cases decoded : StoredRow.ofValue value with
    | error error =>
      rw [decoded] at result
      cases result
    | ok row =>
      rw [decoded] at result
      cases more : passing test rest with
      | error failure =>
        rw [more] at result
        cases result
      | ok others =>
        rw [more] at result
        cases result
        have bounded : others.length ≤ rest.length := ih more
        by_cases accepted : test.accepts row.document = true
        · rw [if_pos accepted]
          exact Nat.succ_le_succ bounded
        · rw [if_neg accepted]
          exact Nat.le_succ_of_le bounded

theorem length_of_passing_error {test : RowTest} {rows rest : List Sql.Value} {error : Error}
    (result : passing test rows = .error (error, rest)) : rest.length < rows.length := by
  induction rows with
  | nil => cases result
  | cons value others ih =>
    rw [passing] at result
    cases decoded : StoredRow.ofValue value with
    | error cause =>
      rw [decoded] at result
      cases result
      exact Nat.lt_succ_self _
    | ok row =>
      rw [decoded] at result
      cases more : passing test others with
      | error failure =>
        rw [more] at result
        cases result
        exact Nat.lt_succ_of_lt (ih more)
      | ok matched =>
        rw [more] at result
        cases result

theorem length_arrange_le (plan : ScanPlan) (rows : List StoredRow) :
    (arrange plan rows).length ≤ rows.length := by
  simp only [arrange]
  split
  · exact Nat.le_trans (List.length_take_le' _ _) (by simp)
  · simp

theorem nextStreaming_lt {scan next : Scan} {rows rest : List Sql.Value}
    {item : Except Error StoredRow} (step : scan.nextStreaming rows = (some item, next, rest)) :
    rest.length < rows.length ∧ next.sorted = scan.sorted := by
  induction rows generalizing scan with
  | nil => cases step
  | cons value others ih =>
    rw [nextStreaming] at step
    cases decoded : StoredRow.ofValue value with
    | error error =>
      rw [decoded] at step
      cases step
      exact ⟨Nat.lt_succ_self _, rfl⟩
    | ok row =>
      simp only [decoded] at step
      by_cases refused : (!scan.plan.test.accepts row.document) = true
      · rw [if_pos refused] at step
        obtain ⟨shorter, same⟩ := ih step
        exact ⟨Nat.lt_succ_of_lt shorter, same⟩
      · rw [if_neg refused] at step
        by_cases skipped : 0 < scan.skip
        · rw [if_pos skipped] at step
          obtain ⟨shorter, same⟩ := ih step
          exact ⟨Nat.lt_succ_of_lt shorter, same⟩
        · rw [if_neg skipped] at step
          cases step
          exact ⟨Nat.lt_succ_self _, rfl⟩

theorem pop_lt {scan next : Scan} {rows rest : List Sql.Value} {sorted : List StoredRow}
    {item : Except Error StoredRow} (step : scan.pop rows sorted = (some item, next, rest)) :
    rest = rows ∧ (next.sorted.getD []).length < sorted.length := by
  cases sorted with
  | nil => cases step
  | cons first others =>
    cases step
    exact ⟨rfl, Nat.lt_succ_self _⟩

/-- How many rows a scan holds besides those that are not taken yet. -/
def held (scan : Scan) : Nat := (scan.sorted.getD []).length

/-- A row that is handed out is no longer there. When the rows are sorted, they move from those not
taken yet to those held. -/
theorem next_lt {scan next : Scan} {rows rest : List Sql.Value} {item : Except Error StoredRow}
    (step : scan.next rows = (some item, next, rest)) :
    rest.length + next.held < rows.length + scan.held := by
  rw [Scan.next] at step
  by_cases unsorted : scan.plan.sort.isEmpty = true
  · rw [if_pos unsorted] at step
    by_cases finished : scan.remaining = some 0
    · rw [if_pos finished] at step
      cases step
    · rw [if_neg finished] at step
      obtain ⟨shorter, same⟩ := nextStreaming_lt step
      rw [held, held, same]
      exact Nat.add_lt_add_right shorter _
  · rw [if_neg unsorted] at step
    cases read : scan.sorted with
    | some sorted =>
      simp only [read] at step
      obtain ⟨rfl, fewer⟩ := pop_lt step
      rw [held, held, read]
      exact Nat.add_lt_add_left fewer _
    | none =>
      rw [held, held, read]
      cases result : passing scan.plan.test rows with
      | error failure =>
        simp only [read, result] at step
        cases step
        exact length_of_passing_error result
      | ok matched =>
        simp only [read, result] at step
        obtain ⟨rfl, fewer⟩ := pop_lt step
        have bounded : (arrange scan.plan matched).length ≤ rows.length :=
          Nat.le_trans (length_arrange_le scan.plan matched) (length_of_passing result)
        rw [List.length_nil, Nat.zero_add]
        exact Nat.lt_of_lt_of_le fewer bounded

end Scan

namespace Cursor

theorem size_nextRow_lt {cursor next : Cursor} {item : Item StoredRow}
    (step : cursor.nextRow = (some item, next)) : next.size < cursor.size := by
  obtain ⟨rows, scan, projection, closed⟩ := cursor
  cases closed with
  | true => cases step
  | false =>
    cases scan with
    | none =>
      cases rows with
      | nil => cases step
      | cons first rest =>
        cases step
        exact Nat.lt_succ_self _
    | some scan =>
      cases result : scan.next rows with
      | mk handed left =>
        simp only [nextRow, Bool.false_eq_true, if_false, result, Prod.mk.injEq] at step
        obtain ⟨rfl, rfl⟩ := step
        exact Scan.next_lt result

/-- All rows that a cursor hands out, up to its end and past errors. -/
def drainRows (cursor : Cursor) : List (Item StoredRow) :=
  match _ : cursor.nextRow with
  | (none, _) => []
  | (some item, next) => item :: drainRows next
termination_by cursor.size
decreasing_by exact size_nextRow_lt ‹_›

/-- All documents that a cursor hands out, up to its end and past errors. -/
def drain (cursor : Cursor) : List (Item Document) := cursor.drainRows.map (·.map cursor.present)

/-- All rows of a cursor, or its first error. -/
def allRows (cursor : Cursor) : Except Error (List StoredRow) := cursor.drainRows.mapM id

/-- All documents of a cursor, or its first error. -/
def allDocuments (cursor : Cursor) : Except Error (List Document) := cursor.drain.mapM id

end Cursor

end DocTable
