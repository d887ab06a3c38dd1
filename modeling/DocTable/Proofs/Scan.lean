import DocTable.Cursor

/-!
# What an unsorted scan hands out

A scan without sort terms goes through the rows once. Rows without a document
are handed out as errors, rows that fail the test are passed over, and of the
others as many are left out and returned as was asked for. Reading all rows of
such a cursor either finds an error or returns the rows that were chosen.
-/

namespace DocTable

namespace Scan

/-- The rows that a scan hands out one after the other. -/
def handedOut (test : RowTest) (skip : Nat) (remaining : Option Nat) :
    List Sql.Value → List (Except Error StoredRow)
  | [] => []
  | value :: rest =>
      if remaining = some 0 then []
      else
        match StoredRow.ofValue value with
        | .error error => .error error :: handedOut test skip remaining rest
        | .ok row =>
            if test.accepts row.document then
              if 0 < skip then handedOut test (skip - 1) remaining rest
              else .ok row :: handedOut test skip (remaining.map (· - 1)) rest
            else handedOut test skip remaining rest

theorem handedOut_nil_of_remaining (test : RowTest) (skip : Nat) (rows : List Sql.Value) :
    handedOut test skip (some 0) rows = [] := by
  cases rows with
  | nil => rfl
  | cons value rest => rw [handedOut, if_pos rfl]

/-- One step of a scan takes the first of the rows that it hands out. -/
theorem nextStreaming_cases (scan : Scan) (rows : List Sql.Value)
    (open_scan : scan.remaining ≠ some 0) :
    ∃ item next rest, scan.nextStreaming rows = (item, next, rest) ∧ next.plan = scan.plan ∧
      match item with
      | none => handedOut scan.plan.test scan.skip scan.remaining rows = []
      | some item => handedOut scan.plan.test scan.skip scan.remaining rows =
          item :: handedOut scan.plan.test next.skip next.remaining rest := by
  induction rows generalizing scan with
  | nil => exact ⟨none, scan, [], rfl, rfl, rfl⟩
  | cons value rest ih =>
      rw [nextStreaming, handedOut, if_neg open_scan]
      cases decoded : StoredRow.ofValue value with
      | error error => exact ⟨some (.error error), scan, rest, rfl, rfl, rfl⟩
      | ok row =>
          cases accepted : scan.plan.test.accepts row.document with
          | false => simpa [accepted] using ih scan open_scan
          | true =>
              by_cases skipped : 0 < scan.skip
              · simpa [accepted, skipped] using ih { scan with skip := scan.skip - 1 } open_scan
              · refine ⟨some (.ok row), { scan with remaining := scan.remaining.map (· - 1) }, rest,
                  ?_, rfl, ?_⟩
                · simp [accepted, skipped]
                · simp [accepted, skipped]

end Scan

namespace Cursor

theorem drainRows_of_none {cursor next : Cursor} (step : cursor.nextRow = (none, next)) :
    cursor.drainRows = [] := by
  rw [drainRows]
  split
  · rfl
  · next item later found =>
      rw [step] at found
      cases found

theorem drainRows_of_some {cursor next : Cursor} {item : Item StoredRow}
    (step : cursor.nextRow = (some item, next)) :
    cursor.drainRows = item :: next.drainRows := by
  rw [drainRows]
  split
  · next later found =>
      rw [step] at found
      cases found
  · next own later found =>
      rw [step] at found
      cases found
      rfl

/-- The next row of an open cursor over an unsorted scan. -/
theorem nextRow_scan {rows rest : List Sql.Value} {scan next : Scan}
    {item : Option (Item StoredRow)} (projection : Option Projection)
    (step : scan.next rows = (item, next, rest)) :
    ∃ after, nextRow ⟨rows, some scan, projection, false⟩ = (item, after) ∧
      (item.isSome → after = ⟨rest, some next, projection, false⟩) := by
  rw [nextRow, if_neg (by simp)]
  simp only [step]
  cases item with
  | none => exact ⟨_, rfl, by simp⟩
  | some item => exact ⟨_, rfl, fun _ => rfl⟩

/-- An open cursor over an unsorted scan hands out what the scan does. -/
theorem drainRows_scan (rows : List Sql.Value) (scan : Scan) (projection : Option Projection)
    (unsorted : scan.plan.sort = []) :
    drainRows ⟨rows, some scan, projection, false⟩ =
      Scan.handedOut scan.plan.test scan.skip scan.remaining rows := by
  by_cases exhausted : scan.remaining = some 0
  · have step : scan.next rows = (none, scan, rows) := by
      simp [Scan.next, unsorted, exhausted]
    rcases nextRow_scan projection step with ⟨after, ended, -⟩
    rw [drainRows_of_none ended, exhausted, Scan.handedOut_nil_of_remaining]
  · rcases scan.nextStreaming_cases rows exhausted with ⟨item, next, rest, streamed, plan, handed⟩
    have step : scan.next rows = (item, next, rest) := by
      simp [Scan.next, unsorted, exhausted, streamed]
    rcases nextRow_scan projection step with ⟨after, took, later⟩
    cases item with
    | none =>
        rw [drainRows_of_none took]
        exact handed.symm
    | some item =>
        have shorter := (Scan.nextStreaming_lt streamed).1
        have still : next.plan.sort = [] := by rw [plan, unsorted]
        rw [drainRows_of_some took, later rfl, drainRows_scan rest next projection still, plan]
        exact handed.symm
termination_by rows.length

end Cursor

/-! ## Reading all rows -/

/-- The row of a value that holds a document and passes a test. -/
def RowTest.chosen? (test : RowTest) (value : Sql.Value) : Option StoredRow :=
  match StoredRow.ofValue value with
  | .error _ => none
  | .ok row => if test.accepts row.document then some row else none

theorem StoredRow.ofValue_eq_ok_iff {value : Sql.Value} {row : StoredRow} :
    StoredRow.ofValue value = .ok row ↔
      value = .text row.raw ∧ Document.decode row.raw = .ok row.document := by
  cases value with
  | text raw =>
      simp only [StoredRow.ofValue, Sql.Value.text.injEq]
      cases decoded : Document.decode raw with
      | error cause =>
          constructor
          · intro failed
            cases failed
          · intro found
            rcases found with ⟨rfl, again⟩
            rw [decoded] at again
            cases again
      | ok document =>
          constructor
          · intro same
            cases same
            exact ⟨rfl, decoded⟩
          · intro found
            rcases found with ⟨rfl, again⟩
            rw [decoded] at again
            cases again
            rfl
  | null | integer _ | real _ | blob _ =>
      constructor
      · intro failed
        cases failed
      · intro found
        rcases found with ⟨impossible, -⟩
        cases impossible

theorem RowTest.chosen?_eq_some_iff {test : RowTest} {value : Sql.Value} {row : StoredRow} :
    test.chosen? value = some row ↔
      StoredRow.ofValue value = .ok row ∧ test.accepts row.document = true := by
  rw [RowTest.chosen?]
  cases StoredRow.ofValue value with
  | error error => simp
  | ok own =>
      simp only [Option.ite_none_right_eq_some, Option.some.injEq, Except.ok.injEq]
      constructor
      · intro found
        rcases found with ⟨accepted, rfl⟩
        exact ⟨rfl, accepted⟩
      · intro found
        rcases found with ⟨rfl, accepted⟩
        exact ⟨accepted, rfl⟩

theorem RowTest.rejects_of_chosen? {test : RowTest} {value : Sql.Value} {row : StoredRow}
    (decoded : StoredRow.ofValue value = .ok row) (passed : test.chosen? value = none) :
    test.accepts row.document = false := by
  rw [RowTest.chosen?, decoded] at passed
  simpa using passed

namespace Scan

section

variable {test : RowTest} {skip : Nat} {remaining : Option Nat}
variable {value : Sql.Value} {rest : List Sql.Value}

theorem handedOut_cons_of_error {error : Error} (failed : StoredRow.ofValue value = .error error)
    (unfilled : remaining ≠ some 0) :
    handedOut test skip remaining (value :: rest) =
      .error error :: handedOut test skip remaining rest := by
  rw [handedOut, if_neg unfilled, failed]

theorem handedOut_cons_of_passed {row : StoredRow} (decoded : StoredRow.ofValue value = .ok row)
    (passed : test.chosen? value = none) :
    handedOut test skip remaining (value :: rest) = handedOut test skip remaining rest := by
  rw [handedOut, decoded]
  split
  · next exhausted => rw [exhausted, handedOut_nil_of_remaining]
  · simp only [RowTest.rejects_of_chosen? decoded passed, Bool.false_eq_true, if_false]

theorem handedOut_cons_of_skipped {row : StoredRow} (chosen : test.chosen? value = some row) :
    handedOut test (skip + 1) remaining (value :: rest) = handedOut test skip remaining rest := by
  rcases RowTest.chosen?_eq_some_iff.1 chosen with ⟨decoded, accepted⟩
  rw [handedOut, decoded]
  split
  · next exhausted => rw [exhausted, handedOut_nil_of_remaining]
  · simp only [accepted, if_true, Nat.zero_lt_succ, Nat.add_sub_cancel]

theorem handedOut_cons_of_chosen {row : StoredRow} (chosen : test.chosen? value = some row)
    (unfilled : remaining ≠ some 0) :
    handedOut test 0 remaining (value :: rest) =
      .ok row :: handedOut test 0 (remaining.map (· - 1)) rest := by
  rcases RowTest.chosen?_eq_some_iff.1 chosen with ⟨decoded, accepted⟩
  rw [handedOut, if_neg unfilled, decoded]
  simp only [accepted, if_true, Nat.lt_irrefl, if_false]

end

theorem mapM_id_cons {first : Except Error StoredRow} {rest : List (Except Error StoredRow)}
    {rows : List StoredRow} (read : (first :: rest).mapM id = .ok rows) :
    ∃ row others, first = .ok row ∧ rest.mapM id = .ok others ∧ rows = row :: others := by
  rw [List.mapM_cons] at read
  cases first with
  | error error => cases read
  | ok row =>
      cases more : rest.mapM id with
      | error error =>
          rw [more] at read
          cases read
      | ok others =>
          rw [more] at read
          cases read
          exact ⟨row, others, rfl, rfl, rfl⟩

/-- Reading a row: nothing may be left to return, or the row does not pass the
test, or it does and is left out or returned. -/
theorem mapM_handedOut_cons {test : RowTest} {skip : Nat} {remaining : Option Nat}
    {value : Sql.Value} {rest : List Sql.Value} {rows : List StoredRow}
    (read : (handedOut test skip remaining (value :: rest)).mapM id = .ok rows) :
    (remaining = some 0 ∧ rows = []) ∨
      (∃ row, StoredRow.ofValue value = .ok row) ∧
        ((test.chosen? value = none ∧
            (handedOut test skip remaining rest).mapM id = .ok rows) ∨
          ∃ row, test.chosen? value = some row ∧
            ((0 < skip ∧ (handedOut test (skip - 1) remaining rest).mapM id = .ok rows) ∨
              skip = 0 ∧ ∃ others,
                (handedOut test 0 (remaining.map (· - 1)) rest).mapM id = .ok others ∧
                  rows = row :: others)) := by
  by_cases exhausted : remaining = some 0
  · rw [exhausted, handedOut_nil_of_remaining] at read
    cases read
    exact .inl ⟨exhausted, rfl⟩
  right
  cases decoded : StoredRow.ofValue value with
  | error error =>
      rw [handedOut_cons_of_error decoded exhausted] at read
      rcases mapM_id_cons read with ⟨row, others, failed, -⟩
      cases failed
  | ok row =>
      refine ⟨⟨row, rfl⟩, ?_⟩
      cases chosen : test.chosen? value with
      | none =>
          rw [handedOut_cons_of_passed decoded chosen] at read
          exact .inl ⟨rfl, read⟩
      | some own =>
          right
          refine ⟨own, rfl, ?_⟩
          match skip with
          | skip + 1 =>
              rw [handedOut_cons_of_skipped chosen] at read
              exact .inl ⟨Nat.zero_lt_succ skip, read⟩
          | 0 =>
              rw [handedOut_cons_of_chosen chosen exhausted] at read
              rcases mapM_id_cons read with ⟨first, others, same, more, rows_eq⟩
              cases same
              exact .inr ⟨rfl, others, more, rows_eq⟩

/-- Without a limit all rows are read, and those that pass the test are handed out. -/
theorem mapM_handedOut_all {test : RowTest} {values : List Sql.Value} {rows : List StoredRow}
    (read : (handedOut test 0 none values).mapM id = .ok rows) :
    (∀ value ∈ values, ∃ row, StoredRow.ofValue value = .ok row) ∧
      rows = values.filterMap test.chosen? := by
  induction values generalizing rows with
  | nil =>
      cases read
      exact ⟨by simp, rfl⟩
  | cons value rest ih =>
      rcases mapM_handedOut_cons read with ⟨limited, -⟩ | ⟨readable, passed | found⟩
      · cases limited
      · rcases ih passed.2 with ⟨others, rows_eq⟩
        rw [List.filterMap_cons_none passed.1]
        exact ⟨List.forall_mem_cons.2 ⟨readable, others⟩, rows_eq⟩
      · rcases found with ⟨row, chosen, skipped | ⟨-, later, more, rfl⟩⟩
        · exact absurd skipped.1 (Nat.lt_irrefl 0)
        · rcases ih more with ⟨others, rfl⟩
          rw [List.filterMap_cons_some chosen]
          exact ⟨List.forall_mem_cons.2 ⟨readable, others⟩, rfl⟩

/-- With a limit of one the rows are read up to the first one that passes the test. -/
theorem mapM_handedOut_one {test : RowTest} {values : List Sql.Value} {rows : List StoredRow}
    (read : (handedOut test 0 (some 1) values).mapM id = .ok rows) :
    (rows = [] ∧ ∀ value ∈ values, test.chosen? value = none) ∨
      ∃ before value after row, values = before ++ value :: after ∧ rows = [row] ∧
        test.chosen? value = some row ∧ ∀ other ∈ before, test.chosen? other = none := by
  induction values generalizing rows with
  | nil =>
      cases read
      exact .inl ⟨rfl, by simp⟩
  | cons value rest ih =>
      rcases mapM_handedOut_cons read with ⟨limited, -⟩ | ⟨-, passed | found⟩
      · cases limited
      · rcases ih passed.2 with ⟨rfl, none⟩ | ⟨before, found, after, row, rfl, rfl, chosen, none⟩
        · exact .inl ⟨rfl, List.forall_mem_cons.2 ⟨passed.1, none⟩⟩
        · exact .inr ⟨value :: before, found, after, row, rfl, rfl, chosen,
            List.forall_mem_cons.2 ⟨passed.1, none⟩⟩
      · rcases found with ⟨row, chosen, skipped | ⟨-, later, more, rfl⟩⟩
        · exact absurd skipped.1 (Nat.lt_irrefl 0)
        · rw [Option.map_some, Nat.sub_self, handedOut_nil_of_remaining] at more
          cases more
          exact .inr ⟨[], value, rest, row, rfl, rfl, chosen, by simp⟩

/-- Whatever is left out or behind the limit, only rows that pass the test are read. -/
theorem sublist_of_mapM_handedOut {test : RowTest} {skip : Nat} {remaining : Option Nat}
    {values : List Sql.Value} {rows : List StoredRow}
    (read : (handedOut test skip remaining values).mapM id = .ok rows) :
    rows.Sublist (values.filterMap test.chosen?) := by
  induction values generalizing skip remaining rows with
  | nil =>
      cases read
      exact List.Sublist.refl _
  | cons value rest ih =>
      rcases mapM_handedOut_cons read with ⟨-, rfl⟩ | ⟨-, passed | found⟩
      · exact List.nil_sublist _
      · rw [List.filterMap_cons_none passed.1]
        exact ih passed.2
      · rcases found with ⟨row, chosen, ⟨-, more⟩ | ⟨-, later, more, rfl⟩⟩
        · rw [List.filterMap_cons_some chosen]
          exact (ih more).cons row
        · rw [List.filterMap_cons_some chosen]
          exact (ih more).cons_cons row

/-- A scan without a limit hands out the rows that pass the test, and errors among them. -/
theorem filterMap_handedOut_all (test : RowTest) (values : List Sql.Value) :
    (handedOut test 0 none values).filterMap Except.toOption = values.filterMap test.chosen? := by
  induction values with
  | nil => rfl
  | cons value rest ih =>
      have unfilled : (none : Option Nat) ≠ some 0 := (Option.some_ne_none 0).symm
      cases chosen : test.chosen? value with
      | none =>
          rw [List.filterMap_cons_none chosen, ← ih]
          cases decoded : StoredRow.ofValue value with
          | error error =>
              rw [handedOut_cons_of_error decoded unfilled]
              rfl
          | ok row => rw [handedOut_cons_of_passed decoded chosen]
      | some row =>
          rw [List.filterMap_cons_some chosen, handedOut_cons_of_chosen chosen unfilled, ← ih]
          rfl

theorem mem_handedOut_all {test : RowTest} {values : List Sql.Value} {value : Sql.Value}
    {row : StoredRow} (member : value ∈ values) (chosen : test.chosen? value = some row) :
    .ok row ∈ handedOut test 0 none values := by
  have inChosen : row ∈ values.filterMap test.chosen? :=
    List.mem_filterMap.2 ⟨value, member, chosen⟩
  rw [← filterMap_handedOut_all] at inChosen
  rcases List.mem_filterMap.1 inChosen with ⟨item, inItems, read⟩
  cases item with
  | error error => cases read
  | ok own =>
      cases read
      exact inItems

theorem any_handedOut_all (test : RowTest) (values : List Sql.Value) :
    (handedOut test 0 none values).any (·.isOk) = !(values.filterMap test.chosen?).isEmpty := by
  rw [← filterMap_handedOut_all]
  induction handedOut test 0 none values with
  | nil => rfl
  | cons item rest ih =>
      cases item with
      | error error => exact ih
      | ok row => rfl

/-- What is returned of some rows: those behind the skip, up to the limit if there is one. -/
def slice {α : Type} (skip : Nat) (limit : Option Nat) (rows : List α) : List α :=
  match limit with
  | some limit => (rows.drop skip).take limit
  | none => rows.drop skip

/-- Where every row is readable, a scan hands out its part of the rows that pass the test. -/
theorem handedOut_readable (test : RowTest) (skip : Nat) (remaining : Option Nat)
    {values : List Sql.Value}
    (readable : ∀ value ∈ values, ∃ row, StoredRow.ofValue value = .ok row) :
    handedOut test skip remaining values =
      (slice skip remaining (values.filterMap test.chosen?)).map .ok := by
  induction values generalizing skip remaining with
  | nil => cases remaining <;> simp [handedOut, slice]
  | cons value rest ih =>
      rcases List.forall_mem_cons.1 readable with ⟨⟨row, decoded⟩, later⟩
      by_cases exhausted : remaining = some 0
      · rw [exhausted, handedOut_nil_of_remaining, slice, List.take_zero, List.map_nil]
      cases chosen : test.chosen? value with
      | none =>
          rw [handedOut_cons_of_passed decoded chosen, List.filterMap_cons_none chosen]
          exact ih skip remaining later
      | some row =>
          rw [List.filterMap_cons_some chosen]
          match skip with
          | skip + 1 =>
              rw [handedOut_cons_of_skipped chosen, ih skip remaining later]
              cases remaining <;> rfl
          | 0 =>
              rw [handedOut_cons_of_chosen chosen exhausted, ih 0 _ later]
              match remaining with
              | none => rfl
              | some 0 => exact absurd rfl exhausted
              | some (limit + 1) => rfl

end Scan

theorem StoredRow.decode_of_ofValue {value : Sql.Value} {error : Error}
    (failed : StoredRow.ofValue value = .error error) : ∃ cause, error = .decode cause := by
  cases value with
  | text raw =>
      rw [StoredRow.ofValue] at failed
      cases decoded : Document.decode raw with
      | error cause =>
          rw [decoded] at failed
          cases failed
          exact ⟨cause, rfl⟩
      | ok document =>
          rw [decoded] at failed
          cases failed
  | null | integer _ | real _ | blob _ =>
      cases failed
      exact ⟨_, rfl⟩

namespace Scan

theorem decode_of_nextStreaming {scan next : Scan} {rows rest : List Sql.Value} {error : Error}
    (step : scan.nextStreaming rows = (some (.error error), next, rest)) :
    ∃ cause, error = .decode cause := by
  induction rows generalizing scan with
  | nil => cases step
  | cons value others ih =>
      rw [nextStreaming] at step
      split at step
      · next own failed =>
          cases step
          exact StoredRow.decode_of_ofValue failed
      · split at step
        · exact ih step
        · split at step
          · exact ih step
          · cases step

theorem decode_of_passing {test : RowTest} {rows rest : List Sql.Value} {error : Error}
    (step : passing test rows = .error (error, rest)) : ∃ cause, error = .decode cause := by
  induction rows with
  | nil => cases step
  | cons value others ih =>
      rw [passing] at step
      split at step
      · next own failed =>
          cases step
          exact StoredRow.decode_of_ofValue failed
      · cases more : passing test others with
        | error pair =>
            rw [more] at step
            cases step
            exact ih more
        | ok matched =>
            rw [more] at step
            cases step

theorem decode_of_next {scan next : Scan} {rows rest : List Sql.Value} {error : Error}
    (step : scan.next rows = (some (.error error), next, rest)) :
    ∃ cause, error = .decode cause := by
  have popped (other : Scan) (left : List Sql.Value) (sorted : List StoredRow) :
      other.pop left sorted ≠ (some (.error error), next, rest) := by
    cases sorted <;> exact nofun
  rw [Scan.next] at step
  split at step
  · split at step
    · cases step
    · exact decode_of_nextStreaming step
  · split at step
    · exact absurd step (popped _ _ _)
    · split at step
      · next own left failed =>
          cases step
          exact decode_of_passing failed
      · exact absurd step (popped _ _ _)

end Scan

namespace Cursor

/-- The only errors that a cursor hands out are rows without a document. -/
theorem decode_of_nextRow {cursor next : Cursor} {error : Error}
    (step : cursor.nextRow = (some (.error error), next)) : ∃ cause, error = .decode cause := by
  rcases cursor with ⟨rows, scan, projection, closed⟩
  cases closed with
  | true => cases step
  | false =>
      cases scan with
      | none =>
          cases rows with
          | nil => cases step
          | cons first rest =>
              exact StoredRow.decode_of_ofValue (Option.some.inj (congrArg Prod.fst step))
      | some scan =>
          rcases found : scan.next rows with ⟨item, after, rest⟩
          rcases nextRow_scan projection found with ⟨later, took, -⟩
          rw [took] at step
          cases step
          exact Scan.decode_of_next found

theorem decode_of_mem_drainRows (cursor : Cursor) {error : Error}
    (member : .error error ∈ cursor.drainRows) : ∃ cause, error = .decode cause := by
  rcases step : cursor.nextRow with ⟨item, next⟩
  cases item with
  | none =>
      rw [drainRows_of_none step] at member
      cases member
  | some item =>
      rw [drainRows_of_some step] at member
      have smaller := size_nextRow_lt step
      rcases List.mem_cons.1 member with rfl | member
      · exact decode_of_nextRow step
      · exact decode_of_mem_drainRows next member
termination_by cursor.size

theorem decode_of_allRows {cursor : Cursor} {error : Error}
    (failed : cursor.allRows = .error error) : ∃ cause, error = .decode cause := by
  have mem {items : List (Item StoredRow)} (failed : items.mapM id = .error error) :
      .error error ∈ items := by
    induction items with
    | nil => cases failed
    | cons item rest ih =>
        rw [List.mapM_cons] at failed
        cases item with
        | error own =>
            cases failed
            exact List.mem_cons_self
        | ok row =>
            cases more : rest.mapM id with
            | error own =>
                rw [more] at failed
                cases failed
                exact List.mem_cons_of_mem _ (ih more)
            | ok rows =>
                rw [more] at failed
                cases failed
  exact cursor.decode_of_mem_drainRows (mem failed)

/-- An open cursor over what the engine has chosen hands out every row. -/
theorem drainRows_pushdown (rows : List Sql.Value) (projection : Option Projection) :
    drainRows ⟨rows, none, projection, false⟩ = rows.map StoredRow.ofValue := by
  induction rows with
  | nil => exact drainRows_of_none rfl
  | cons value rest ih =>
      have step : nextRow ⟨value :: rest, none, projection, false⟩ =
          (some (StoredRow.ofValue value), ⟨rest, none, projection, false⟩) := rfl
      rw [drainRows_of_some step, ih, List.map_cons]

end Cursor

namespace Scan

theorem mapM_id_append_error {items rest : List (Except Error StoredRow)} {error : Error}
    (readable : ∀ item ∈ items, ∃ row, item = .ok row) :
    (items ++ .error error :: rest).mapM id = .error error := by
  induction items with
  | nil => rfl
  | cons item items ih =>
      rcases readable item (by simp) with ⟨row, rfl⟩
      have later := fun other member => readable other (List.mem_cons_of_mem _ member)
      rw [List.cons_append, List.mapM_cons, ih later]
      rfl

/-- A scan that has not handed out all that it may comes to the row without a
document. -/
theorem mapM_handedOut_unreadable {test : RowTest} {remaining : Option Nat}
    {before after : List Sql.Value} {bad : Sql.Value} {error : Error}
    (readable : ∀ value ∈ before, ∃ row, StoredRow.ofValue value = .ok row)
    (unfilled : ∀ limit ∈ remaining, (before.filterMap test.chosen?).length < limit)
    (failed : StoredRow.ofValue bad = .error error) :
    (handedOut test 0 remaining (before ++ bad :: after)).mapM id = .error error := by
  induction before generalizing remaining with
  | nil =>
      have exhausted : remaining ≠ some 0 := by
        rintro rfl
        exact absurd (unfilled 0 rfl) (Nat.not_lt_zero _)
      rw [List.nil_append, handedOut_cons_of_error failed exhausted]
      rfl
  | cons value rest ih =>
      have exhausted : remaining ≠ some 0 := by
        rintro rfl
        exact absurd (unfilled 0 rfl) (Nat.not_lt_zero _)
      rcases List.forall_mem_cons.1 readable with ⟨⟨row, decoded⟩, later⟩
      rw [List.cons_append]
      cases chosen : test.chosen? value with
      | none =>
          rw [List.filterMap_cons_none chosen] at unfilled
          rw [handedOut_cons_of_passed decoded chosen]
          exact ih later unfilled
      | some own =>
          rw [List.filterMap_cons_some chosen] at unfilled
          have fewer : ∀ limit ∈ remaining.map (· - 1),
              (rest.filterMap test.chosen?).length < limit := by
            intro left isLeft
            rcases Option.map_eq_some_iff.1 isLeft with ⟨limit, isLimit, rfl⟩
            have room := unfilled limit isLimit
            rw [List.length_cons] at room
            omega
          rw [handedOut_cons_of_chosen chosen exhausted, List.mapM_cons, ih later fewer]
          rfl

end Scan

end DocTable
