import DocTable.Proofs.Collection.Agreement
import DocTable.Proofs.Update.Idempotence

/-!
# Rows that are hit again

Over a table of texts an update addresses each row by the text that was read, and it has
already written to the rows in front of it. If all rows are read as different texts, a row is
not written before its turn, and one that is not modified is never written. But the new text of
a row can be the text of a row behind it, whose statement then writes to both. So every row is
updated once if and only if the statements behind a row leave its new text as it is. An update
that adds to no number does the same the second time, so it leaves all of them.
-/

namespace DocTable

variable {ι : Type} {ids : IdSource ι} {name : String} {rows : List Sql.Value}
variable {change : Document → Document × Bool} {test : RowTest}

/-- A row behind one update: if its document passes the test and is changed, the text of the new
document, and otherwise the row itself. -/
def RowTest.revised (test : RowTest) (change : Document → Document × Bool)
    (row : Sql.Value) : Sql.Value :=
  match test.chosen? row.asRead with
  | some stored => if (change stored.document).2 then .text (change stored.document).1.text else row
  | none => row

/-- The text that is written to a modified row is left as it is by the statements for the rows
behind it. -/
def Lasting (change : Document → Document × Bool) : List StoredRow → Prop
  | [] => True
  | row :: rest =>
      ((change row.document).2 = true →
        rest.foldl (StoredRow.written change) (.text (change row.document).1.text) =
          .text (change row.document).1.text) ∧
        Lasting change rest

/-- This is so if each of these statements leaves the text as it is. -/
theorem Lasting.of_pairwise {chosen : List StoredRow}
    (apart : chosen.Pairwise fun row later => (change row.document).2 = true →
      later.written change (.text (change row.document).1.text) =
        .text (change row.document).1.text) : Lasting change chosen := by
  induction apart with
  | nil => trivial
  | cons head _ ih =>
      refine ⟨fun changed => foldl_written_eq_self ?_, ih⟩
      intro later member
      exact head later member changed

/-- So it is if no new text is the text of a modified row behind it. -/
theorem Lasting.of_apart {chosen : List StoredRow}
    (apart : chosen.Pairwise fun row later => (change row.document).2 = true →
      (change later.document).2 = true → (change row.document).1.text ≠ later.raw) :
    Lasting change chosen := by
  apply Lasting.of_pairwise
  apply apart.imp
  intro row later different changed
  apply StoredRow.written_eq_self
  intro modified same
  exact different changed modified (Sql.Value.text.inj same)

/-- The rows that pass a test, as they are read. -/
def RowTest.chosenFrom (test : RowTest) (rows : List Sql.Value) : List StoredRow :=
  rows.filterMap fun row => test.chosen? row.asRead

theorem Sql.Value.asRead_text (raw : String) : (Sql.Value.text raw).asRead = .text raw := rfl

theorem Sql.Value.isText_eq_true_iff {row : Sql.Value} {raw : String}
    (read : row.asRead = .text raw) : row.isText = true ↔ row = .text raw := by
  constructor
  · intro isText
    cases row with
    | text _ => exact read
    | null | integer _ | real _ | blob _ => cases isText
  · rintro rfl
    rfl

theorem RowTest.chosenFrom_texts {stored : List StoredRow}
    (decoded : ∀ row ∈ stored, Document.decode row.raw = .ok row.document)
    (accepted : ∀ row ∈ stored, test.accepts row.document = true) :
    test.chosenFrom (stored.map fun row => .text row.raw) = stored := by
  rw [chosenFrom, List.filterMap_map]
  have each : ∀ row ∈ stored, test.chosen? (.text row.raw) = some row := by
    intro row member
    exact RowTest.chosen?_eq_some_iff.2
      ⟨StoredRow.ofValue_eq_ok_iff.2 ⟨rfl, decoded row member⟩, accepted row member⟩
  exact (List.filterMap_congr each).trans List.filterMap_some

/-- No statement for other rows writes to a row that none of them is read as. -/
theorem foldl_written_chosenFrom {value : Sql.Value}
    (fresh : value.asRead ∉ rows.map Sql.Value.asRead) :
    (test.chosenFrom rows).foldl (StoredRow.written change) value = value := by
  apply foldl_written_of_ne
  rintro stored member rfl
  obtain ⟨origin, inRows, selected⟩ := List.mem_filterMap.1 member
  exact fresh (List.mem_map.2 ⟨origin, inRows, (RowTest.stored_of_chosen? selected).1⟩)

/-- The first row is updated once if it is found again and its new text lasts. -/
theorem foldl_written_head_iff {row : Sql.Value} {stored : StoredRow}
    (fresh : row.asRead ∉ rows.map Sql.Value.asRead)
    (selected : test.chosen? row.asRead = some stored) :
    (stored :: test.chosenFrom rows).foldl (StoredRow.written change) row =
        test.revised change row ↔
      ((change stored.document).2 = true → row.isText = true) ∧
        ((change stored.document).2 = true →
          (test.chosenFrom rows).foldl (StoredRow.written change)
            (.text (change stored.document).1.text) = .text (change stored.document).1.text) := by
  have isText := Sql.Value.isText_eq_true_iff (RowTest.stored_of_chosen? selected).1
  have stays : (test.chosenFrom rows).foldl (StoredRow.written change) row = row :=
    foldl_written_chosenFrom fresh
  rw [List.foldl_cons, RowTest.revised, selected]
  by_cases changed : (change stored.document).2 = true
  · simp only [changed, if_true, true_imp_iff]
    by_cases found : row = .text stored.raw
    · have written : stored.written change row = .text (change stored.document).1.text :=
        if_pos ⟨changed, found⟩
      rw [written, and_iff_right (isText.2 found)]
    · rw [StoredRow.written_eq_self fun _ => found, stays, isText,
        iff_false_right (absurd ·.1 found)]
      intro same
      exact found (isText.1 (congrArg Sql.Value.isText same))
  · rw [StoredRow.written_eq_self fun modified => absurd modified changed, stays]
    simp [changed]

/-- The statements for the rows that a test chooses update every row once, if and only if the
modified rows are found again and what is written to them lasts. -/
theorem map_foldl_written_iff (distinct : (rows.map Sql.Value.asRead).Nodup) :
    rows.map (fun value => (test.chosenFrom rows).foldl (StoredRow.written change) value) =
        rows.map (test.revised change) ↔
      (∀ row ∈ rows, test.modifies change row.asRead = true → row.isText = true) ∧
        Lasting change (test.chosenFrom rows) := by
  induction rows with
  | nil => simp [RowTest.chosenFrom, Lasting]
  | cons row rest ih =>
      obtain ⟨fresh, distinct⟩ := List.nodup_cons.1 distinct
      rw [List.map_cons, List.map_cons, List.cons.injEq, List.forall_mem_cons]
      cases selected : test.chosen? row.asRead with
      | none =>
          have chosen : test.chosenFrom (row :: rest) = test.chosenFrom rest :=
            List.filterMap_cons_none selected
          have same : test.revised change row = row := by rw [RowTest.revised, selected]
          rw [chosen, same, ih distinct, RowTest.modifies, selected]
          simp [foldl_written_chosenFrom fresh]
      | some stored =>
          have chosen : test.chosenFrom (row :: rest) = stored :: test.chosenFrom rest :=
            List.filterMap_cons_some selected
          have tail : rest.map (fun value =>
                (stored :: test.chosenFrom rest).foldl (StoredRow.written change) value) =
              rest.map fun value =>
                (test.chosenFrom rest).foldl (StoredRow.written change) value := by
            apply List.map_congr_left
            intro value member
            rw [List.foldl_cons, StoredRow.written_eq_self]
            rintro - rfl
            exact fresh (List.mem_map.2 ⟨_, member, (RowTest.stored_of_chosen? selected).1.symm⟩)
          rw [chosen, tail, ih distinct, foldl_written_head_iff fresh selected, Lasting,
            RowTest.modifies, selected, Option.any_some]
          exact and_and_and_comm

theorem foldl_written_of_not_modified {row : Sql.Value}
    (unmodified : test.modifies change row.asRead = false) :
    (test.chosenFrom rows).foldl (StoredRow.written change) row = row := by
  apply foldl_written_eq_self
  intro stored member
  apply StoredRow.written_eq_self
  rintro changed rfl
  obtain ⟨origin, -, selected⟩ := List.mem_filterMap.1 member
  have own : test.chosen? (.text stored.raw) = some stored := by
    rw [← (RowTest.stored_of_chosen? selected).1, selected]
  rw [Sql.Value.asRead_text, RowTest.modifies, own, Option.any_some, changed] at unmodified
  cases unmodified

theorem countP_chosenFrom (test : RowTest) (change : Document → Document × Bool)
    (rows : List Sql.Value) :
    (test.chosenFrom rows).countP (fun row => (change row.document).2) =
      rows.countP fun row => test.modifies change row.asRead := by
  rw [RowTest.chosenFrom, List.countP_filterMap]
  apply List.countP_congr
  intro row _
  rw [RowTest.modifies]
  cases test.chosen? row.asRead <;> simp

/-! ## Changes that are not made twice -/

/-- What is written lasts if the change leaves its own results as they are and these are read
back: a row that is hit again has the new text already. -/
theorem Lasting.of_idempotent {chosen : List StoredRow}
    (decoded : ∀ row ∈ chosen, Document.decode row.raw = .ok row.document)
    (again : ∀ row ∈ chosen, (change (change row.document).1).1 = (change row.document).1)
    (legible : ∀ row ∈ chosen, (Json.object (change row.document).1).Legible) :
    Lasting change chosen := by
  apply Lasting.of_pairwise
  apply List.pairwise_of_forall_mem_list
  intro row member later memberLater _
  by_cases hit : Sql.Value.text (change row.document).1.text = .text later.raw
  · have read := Document.decode_text (legible row member)
    rw [Sql.Value.text.inj hit, decoded later memberLater] at read
    have same : (change later.document).1 = (change row.document).1 := by
      rw [Except.ok.inj read, again row member]
    rw [StoredRow.written, same]
    exact ite_self _
  · exact StoredRow.written_eq_self fun _ => hit

namespace Collection

section

variable {store : MemoryStore} (known : store.rows? name = some rows) {filter : Filter}
variable {update : Document} {spec : Update} (read : Update.ofDocument update = .ok spec)

include known read

/-- An update that can be read writes back what a scan has chosen, or fails with the scan. -/
theorem run_updateMany_of_read (source : ι) :
    (updateMany ⟨name, .text⟩ filter update).run Engine.memory ids store source =
      match filter.scanned name rows with
      | .ok chosen =>
          (writeBack ⟨name, .text⟩ spec.patch? spec.apply chosen >>= fun modified =>
            pure ⟨chosen.length, modified⟩).run Engine.memory ids store source
      | .error error => (.error error, store, source) := by
  have session : updateMany ⟨name, .text⟩ filter update =
      changeChosen ⟨name, .text⟩ filter none spec.patch? spec.apply := by
    rw [updateMany, Collection.update, read]
    rfl
  rw [session, changeChosen, Session.run_bind, run_snapshot known]
  cases filter.scanned name rows <;> rfl

/-- If all rows can be read, it writes to those that it modifies. -/
theorem run_updateMany (ids : IdSource ι) (readable : MemoryStore.isReadable name = true)
    (tested : filter.rowTest = .ok test) (decoded : ∀ row ∈ rows, row.document? ≠ none)
    (source : ι) :
    ∃ last next, (updateMany ⟨name, .text⟩ filter update).run Engine.memory ids store source =
        (.ok ⟨(test.chosenFrom rows).length,
          (test.chosenFrom rows).countP fun row => (spec.apply row.document).2⟩, last, next) ∧
      last.rows? name = some (rows.map fun value =>
        (test.chosenFrom rows).foldl (StoredRow.written spec.apply) value) := by
  have scanned : filter.scanned name rows = .ok (test.chosenFrom rows) :=
    Filter.scanned_ok readable tested decoded
  have written : Session.Leaves ids name rows
      (writeBack ⟨name, .text⟩ spec.patch? spec.apply (test.chosenFrom rows)) _ _ :=
    leaves_writeBack readable spec.patch? _
  obtain ⟨_, last, next, _, ran, reached, rfl, rfl⟩ := written store source known
  refine ⟨last, next, ?_, reached⟩
  rw [run_updateMany_of_read known read, scanned]
  simp only [Session.run_bind, ran]
  rfl

end

/-- An update that succeeds has been able to read its own document, the filter and all rows. -/
theorem updateMany_inv {store last : MemoryStore} {source next : ι}
    (known : store.rows? name = some rows) {filter : Filter} {update : Document}
    {report : UpdateReport}
    (run : (updateMany ⟨name, .text⟩ filter update).run Engine.memory ids store source =
      (.ok report, last, next)) :
    ∃ test spec, MemoryStore.isReadable name = true ∧ filter.rowTest = .ok test ∧
      Update.ofDocument update = .ok spec ∧ ∀ row ∈ rows, row.document? ≠ none := by
  cases read : Update.ofDocument update with
  | error error =>
      rw [updateMany, Collection.update, read] at run
      cases run
  | ok spec =>
      rw [run_updateMany_of_read known read] at run
      cases scanned : filter.scanned name rows with
      | error error =>
          rw [scanned] at run
          cases run
      | ok chosen =>
          obtain ⟨readable, decoded, test, tested, -⟩ := Filter.scanned_inv scanned
          exact ⟨test, spec, readable, tested, rfl, decoded⟩

/-- Let a table of texts hold rows that are read as different texts, and let an update of many
documents succeed. Rows that it does not modify stay what and where they are, and it reports how
many match and how many it modifies. It has updated every matching row once if and only if the
modified rows are stored as texts and no statement for a row behind a modified one makes anything
else of the text that has been written. The latter is so if no new text is the text of a modified
row behind it, and with an update that adds to no number, if the new documents can be read back. -/
theorem updateMany_once_iff {store last : MemoryStore} {source next : ι}
    (known : store.rows? name = some rows) (distinct : (rows.map Sql.Value.asRead).Nodup)
    {filter : Filter} {update : Document} {report : UpdateReport}
    (run : (updateMany ⟨name, .text⟩ filter update).run Engine.memory ids store source =
      (.ok report, last, next)) :
    ∃ test spec after, filter.rowTest = .ok test ∧ Update.ofDocument update = .ok spec ∧
      last.rows? name = some after ∧
      report = ⟨rows.countP test.selects,
        rows.countP fun row => test.modifies spec.apply row.asRead⟩ ∧
      List.Forall₂ (fun row now => test.modifies spec.apply row.asRead = false → now = row)
        rows after ∧
      (after = rows.map (test.revised spec.apply) ↔
        (∀ row ∈ rows, test.modifies spec.apply row.asRead = true → row.isText = true) ∧
          Lasting spec.apply (test.chosenFrom rows)) ∧
      ((test.chosenFrom rows).Pairwise (fun row later => (spec.apply row.document).2 = true →
          (spec.apply later.document).2 = true → (spec.apply row.document).1.text ≠ later.raw) →
        Lasting spec.apply (test.chosenFrom rows)) ∧
      ((Json.object update).Proper → spec.AddsNothing →
        (∀ row ∈ test.chosenFrom rows, (Json.object (spec.apply row.document).1).Legible) →
          Lasting spec.apply (test.chosenFrom rows)) := by
  obtain ⟨test, spec, readable, tested, read, decodable⟩ := updateMany_inv known run
  obtain ⟨_, _, ran, reached⟩ := run_updateMany known read ids readable tested decodable source
  cases run.symm.trans ran
  have matched : (test.chosenFrom rows).length = rows.countP test.selects :=
    length_filterMap_chosen? test rows
  rw [matched, countP_chosenFrom]
  refine ⟨test, spec, _, tested, read, reached, rfl, ?_, map_foldl_written_iff distinct,
    Lasting.of_apart, ?_⟩
  · rw [List.forall₂_map_right_iff, List.forall₂_same]
    intro row _
    exact foldl_written_of_not_modified
  · intro proper adds legible
    have own := (Update.ofDocument_ensures_proper proper).of_ok spec read
    have decoded : ∀ row ∈ test.chosenFrom rows,
        Document.decode row.raw = .ok row.document := by
      intro row member
      obtain ⟨origin, -, selected⟩ := List.mem_filterMap.1 member
      exact (RowTest.stored_of_chosen? selected).2
    refine Lasting.of_idempotent decoded ?_ legible
    intro row member
    exact Update.apply_apply_of_addsNothing own adds
      (Document.proper_of_decode (decoded row member))

/-- An update of all texts of documents in a table. -/
theorem run_updateMany_all (ids : IdSource ι) {store : MemoryStore} {stored : List StoredRow}
    {update : Document} {spec : Update} (readable : MemoryStore.isReadable name = true)
    (known : store.rows? name = some (stored.map fun row => .text row.raw))
    (decoded : ∀ row ∈ stored, Document.decode row.raw = .ok row.document)
    (read : Update.ofDocument update = .ok spec) (source : ι) :
    ∃ last next, (updateMany ⟨name, .text⟩ .all update).run Engine.memory ids store source =
        (.ok ⟨stored.length, stored.countP fun row => (spec.apply row.document).2⟩, last, next) ∧
      last.rows? name = some (stored.map fun row =>
        stored.foldl (StoredRow.written spec.apply) (.text row.raw)) := by
  have readableRows : ∀ row ∈ stored.map fun row => Sql.Value.text row.raw,
      row.document? ≠ none := by
    intro row member
    obtain ⟨own, inStored, rfl⟩ := List.mem_map.1 member
    rw [Sql.Value.document?_text.2 (decoded own inStored)]
    exact Option.some_ne_none _
  have tested : Filter.all.rowTest = .ok (.condition .always) := rfl
  obtain ⟨last, next, ran, reached⟩ :=
    run_updateMany known read ids readable tested readableRows source
  rw [RowTest.chosenFrom_texts decoded fun _ _ => rfl] at ran reached
  rw [List.map_map] at reached
  exact ⟨last, next, ran, reached⟩

/-- Two rows that are far enough from each other to be counted up. -/
theorem updateMany_once_iff_of_gap :
    ∃ last next, (updateMany ⟨"t", .text⟩ .all
        ⟨[("$inc", .object ⟨[("n", .number (.integer 1 (by decide)))]⟩)]⟩).run Engine.memory
        (fun used : Nat => ("id", used + 1))
        ⟨[⟨"t", [.text "\x7b\"n\":1\x7d", .text "\x7b\"n\":3\x7d"]⟩]⟩ 0 =
          (.ok ⟨2, 2⟩, last, next) ∧
      last.rows? "t" = some [.text "\x7b\"n\":2\x7d", .text "\x7b\"n\":4\x7d"] := by
  let ids : IdSource Nat := fun used => ("id", used + 1)
  let stored : List StoredRow :=
    [⟨"\x7b\"n\":1\x7d", ⟨[("n", .number (.integer 1 (by decide)))]⟩⟩,
      ⟨"\x7b\"n\":3\x7d", ⟨[("n", .number (.integer 3 (by decide)))]⟩⟩]
  have known : MemoryStore.rows? ⟨[⟨"t", stored.map fun row => .text row.raw⟩]⟩ "t" =
    some (stored.map fun row => .text row.raw) := by decide
  have decoded : ∀ row ∈ stored, Document.decode row.raw = .ok row.document := by
    rw [List.forall_mem_cons, List.forall_mem_singleton]
    exact ⟨rfl, rfl⟩
  have read : Update.ofDocument ⟨[("$inc", .object ⟨[("n", .number (.integer 1 (by decide)))]⟩)]⟩ =
      .ok (.operators [] [(⟨["n"], by decide, by decide⟩, .integer 1 (by decide))] []) := rfl
  obtain ⟨last, next, ran, -⟩ := run_updateMany_all ids rfl known decoded read 0
  refine ⟨last, next, ran, ?_⟩
  obtain ⟨test, spec, after, tested, readOwn, reached, -, -, once, apart, -⟩ :=
    updateMany_once_iff known (by decide) ran
  cases tested
  cases read.symm.trans readOwn
  rw [RowTest.chosenFrom_texts decoded fun _ _ => rfl] at apart once
  rw [reached, once.2 ⟨by simp [stored, Sql.Value.isText], apart (List.pairwise_pair.2 ?_)⟩]
  · decide +kernel
  · decide +kernel

/-- The first row is counted up to the second one and then with it once more. -/
theorem row_updated_twice :
    ∃ last next, (updateMany ⟨"t", .text⟩ .all
        ⟨[("$inc", .object ⟨[("n", .number (.integer 1 (by decide)))]⟩)]⟩).run Engine.memory
        (fun used : Nat => ("id", used + 1))
        ⟨[⟨"t", [.text "\x7b\"n\":1\x7d", .text "\x7b\"n\":2\x7d"]⟩]⟩ 0 =
          (.ok ⟨2, 2⟩, last, next) ∧
      last.rows? "t" = some [.text "\x7b\"n\":3\x7d", .text "\x7b\"n\":3\x7d"] := by
  let ids : IdSource Nat := fun used => ("id", used + 1)
  let stored : List StoredRow :=
    [⟨"\x7b\"n\":1\x7d", ⟨[("n", .number (.integer 1 (by decide)))]⟩⟩,
      ⟨"\x7b\"n\":2\x7d", ⟨[("n", .number (.integer 2 (by decide)))]⟩⟩]
  have known : MemoryStore.rows? ⟨[⟨"t", stored.map fun row => .text row.raw⟩]⟩ "t" =
    some (stored.map fun row => .text row.raw) := by decide
  have decoded : ∀ row ∈ stored, Document.decode row.raw = .ok row.document := by
    rw [List.forall_mem_cons, List.forall_mem_singleton]
    exact ⟨rfl, rfl⟩
  have read : Update.ofDocument ⟨[("$inc", .object ⟨[("n", .number (.integer 1 (by decide)))]⟩)]⟩ =
      .ok (.operators [] [(⟨["n"], by decide, by decide⟩, .integer 1 (by decide))] []) := rfl
  obtain ⟨last, next, ran, reached⟩ := run_updateMany_all ids rfl known decoded read 0
  refine ⟨last, next, ran, ?_⟩
  rw [reached]
  decide +kernel

end Collection

end DocTable
