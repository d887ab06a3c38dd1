import DocTable.Proofs.Collection.TextTable

/-!
# Writing chosen rows back

An update or a replacement reads the chosen rows of a table of texts and then
writes the changed ones back, one statement after the other, each addressed by
the text that was read. In a keyed table no statement hits a row that another
one has written or will write, so the outcome is that of rewriting every chosen
row once.
-/

namespace DocTable

variable {ι : Type} {ids : IdSource ι} {name : String} {rows : List Sql.Value}
variable {change : Document → Document × Bool}

/-- A row behind a change: if its document passes the test and is changed, the
text of the new document, and otherwise the row itself. -/
def RowTest.rewritten (test : RowTest) (change : Document → Document × Bool)
    (value : Sql.Value) : Sql.Value :=
  match test.chosen? value with
  | some row =>
      if (change row.document).2 then .text (change row.document).1.text else value
  | none => value

/-- Whether a row passes the test. -/
def RowTest.matches (test : RowTest) (value : Sql.Value) : Bool := (test.chosen? value).isSome

/-- Whether a row passes the test and its document is changed. -/
def RowTest.modifies (test : RowTest) (change : Document → Document × Bool)
    (value : Sql.Value) : Bool :=
  (test.chosen? value).any fun row => (change row.document).2

/-- Every row that passes the test has been rewritten. -/
structure RewrittenAll (test : RowTest) (change : Document → Document × Bool)
    (before after : List Sql.Value) (report : UpdateReport) : Prop where
  rows : after = before.map (test.rewritten change)
  matched : report.matched = before.countP test.matches
  modified : report.modified = before.countP (test.modifies change)

/-- The first row that passes the test has been rewritten, if there is one. -/
inductive RewrittenFirst (test : RowTest) (change : Document → Document × Bool) :
    List Sql.Value → List Sql.Value → UpdateReport → Prop where
  | missed {rows : List Sql.Value} (unmatched : ∀ row ∈ rows, test.matches row = false) :
      RewrittenFirst test change rows rows ⟨0, 0⟩
  | found {front back : List Sql.Value} {row : Sql.Value}
      (unmatched : ∀ other ∈ front, test.matches other = false)
      (matched : test.matches row = true) :
      RewrittenFirst test change (front ++ row :: back)
        (front ++ test.rewritten change row :: back) ⟨1, if test.modifies change row then 1 else 0⟩

/-- What writing a row back makes of a stored value. -/
def StoredRow.written (change : Document → Document × Bool) (value : Sql.Value)
    (row : StoredRow) : Sql.Value :=
  if (change row.document).2 ∧ value = .text row.raw then .text (change row.document).1.text
  else value

/-- The statement for a row leaves a value alone, unless the row is modified and the value is its
text. -/
theorem StoredRow.written_eq_self {row : StoredRow} {value : Sql.Value}
    (other : (change row.document).2 = true → value ≠ .text row.raw) :
    row.written change value = value :=
  if_neg fun both => other both.1 both.2

theorem foldl_written_eq_self {chosen : List StoredRow} {value : Sql.Value}
    (stays : ∀ row ∈ chosen, row.written change value = value) :
    chosen.foldl (StoredRow.written change) value = value := by
  induction chosen with
  | nil => rfl
  | cons row rest ih =>
      obtain ⟨head, tail⟩ := List.forall_mem_cons.1 stays
      rw [List.foldl_cons, head, ih tail]

/-- A row is found again by its text, so a patch is never sent. -/
theorem Collection.writeBack_cons (patch : Option String) (row : StoredRow)
    (rest : List StoredRow) :
    writeBack ⟨name, .text⟩ patch change (row :: rest) =
      if (change row.document).2 then do
        let _ ← execute ⟨name, .text⟩
          (.overwrite (.text row.raw) (change row.document).1.text)
        let count ← writeBack ⟨name, .text⟩ patch change rest
        return count + 1
      else writeBack ⟨name, .text⟩ patch change rest := by
  cases patch <;> rfl

theorem StoredRow.map_written {row : StoredRow} (changed : (change row.document).2 = true) :
    MemoryStore.affect rows (.overwrite (.text row.raw) (change row.document).1.text) =
      .ok (rows.countP (· == .text row.raw), rows.map (StoredRow.written change · row)) := by
  rw [MemoryStore.affect, MemoryStore.change]
  have same : (fun value => if (Sql.RowKey.text row.raw).isOf value then
      Sql.Value.text (change row.document).1.text else value) =
      (StoredRow.written change · row) := by
    funext value
    simp [Sql.RowKey.isOf, StoredRow.written, changed]
  rw [same]
  rfl

/-- The rows are written back one by one, and the changed ones are counted. -/
theorem leaves_writeBack (readable : MemoryStore.isReadable name = true) (patch : Option String)
    (chosen : List StoredRow) :
    Session.Leaves ids name rows (Collection.writeBack ⟨name, .text⟩ patch change chosen)
      (chosen.countP fun row => (change row.document).2)
      (rows.map fun value => chosen.foldl (StoredRow.written change) value) := by
  induction chosen generalizing rows with
  | nil =>
      apply Session.Ends.pure
      constructor
      · rfl
      · exact (List.map_id' rows).symm
  | cons row rest ih =>
      rw [Collection.writeBack_cons]
      cases changed : (change row.document).2 with
      | false =>
          have untouched (value : Sql.Value) : row.written change value = value :=
            StoredRow.written_eq_self (by simp [changed])
          simpa [changed, untouched] using @ih rows
      | true =>
          rw [if_pos rfl]
          apply (leaves_execute readable rfl (StoredRow.map_written changed) (by simp)).bind
          apply ih.bind
          apply Session.Ends.pure
          constructor
          · simp only [List.countP_cons, changed, if_true]
          · rw [List.map_map]
            rfl

/-- The rows hold stamped documents whose ids differ. -/
structure Addressable (chosen : List StoredRow) : Prop where
  decoded : ∀ row ∈ chosen, Document.decode row.raw = .ok row.document
  stamped : ∀ row ∈ chosen, ∃ id, row.document.Stamped id
  distinct : chosen.Pairwise fun left right => left.document.id? ≠ right.document.id?

theorem Addressable.tail {row : StoredRow} {rest : List StoredRow}
    (addressable : Addressable (row :: rest)) : Addressable rest := by
  constructor
  · intro other member
    exact addressable.decoded other (List.mem_cons_of_mem _ member)
  · intro other member
    exact addressable.stamped other (List.mem_cons_of_mem _ member)
  · exact addressable.distinct.of_cons

theorem Keyed.addressable {test : RowTest} {chosen : List StoredRow} (keyed : Keyed rows)
    (sublist : chosen.Sublist (rows.filterMap test.chosen?)) : Addressable chosen := by
  have origin (row : StoredRow) (member : row ∈ chosen) :
      ∃ value ∈ rows, test.chosen? value = some row :=
    List.mem_filterMap.1 (sublist.subset member)
  constructor
  · intro row member
    rcases origin row member with ⟨value, -, selected⟩
    exact (RowTest.stored_of_chosen? selected).2
  · intro row member
    rcases origin row member with ⟨value, inRows, selected⟩
    rcases RowTest.stored_of_chosen? selected with ⟨rfl, decoded⟩
    exact keyed.stamped _ inRows _ (Sql.Value.document?_text.2 decoded)
  · exact (keyed.pairwise_filterMap_chosen? test).sublist sublist

theorem foldl_written_of_ne {chosen : List StoredRow} {value : Sql.Value}
    (other : ∀ row ∈ chosen, value ≠ .text row.raw) :
    chosen.foldl (StoredRow.written change) value = value :=
  foldl_written_eq_self fun row member => StoredRow.written_eq_self fun _ => other row member

/-- What has been written to a row is not the text of a row with another id. -/
theorem StoredRow.written_ne {row other : StoredRow} {id : String} (keeps : KeepsStamp change)
    (stamped : row.document.Stamped id) (decoded : Document.decode row.raw = .ok row.document)
    (otherDecoded : Document.decode other.raw = .ok other.document)
    (apart : row.document.id? ≠ other.document.id?) :
    row.written change (.text row.raw) ≠ .text other.raw := by
  intro same
  apply apart
  rw [StoredRow.written] at same
  split at same
  · rw [← Sql.Value.text.inj same] at otherDecoded
    have otherStamped := (keeps stamped).of_decode_text otherDecoded
    rw [stamped.id?_eq, otherStamped.id?_eq]
  · rw [← Sql.Value.text.inj same, decoded] at otherDecoded
    rw [Except.ok.inj otherDecoded]

/-- Among rows with different ids each one is written once, whatever is
written to the others before and after it. -/
theorem foldl_written_of_mem {chosen : List StoredRow} {row : StoredRow}
    (keeps : KeepsStamp change) (addressable : Addressable chosen) (member : row ∈ chosen) :
    chosen.foldl (StoredRow.written change) (.text row.raw) =
      row.written change (.text row.raw) := by
  induction chosen with
  | nil => cases member
  | cons first rest ih =>
      have decoded := addressable.decoded
      rcases List.pairwise_cons.1 addressable.distinct with ⟨apart, -⟩
      rw [List.foldl_cons]
      rcases List.mem_cons.1 member with rfl | inRest
      -- Behind its own statement the row keeps its id, so the other statements miss it.
      · rcases addressable.stamped row member with ⟨id, stamped⟩
        apply foldl_written_of_ne
        intro other inRest
        exact StoredRow.written_ne keeps stamped (decoded row member)
          (decoded other (List.mem_cons_of_mem _ inRest)) (apart other inRest)
      -- In front of it the row has the text that was read, which no other chosen row has.
      · have untouched : first.written change (.text row.raw) = .text row.raw := by
          have different : row.raw ≠ first.raw := by
            intro same
            have firstDecoded := decoded first List.mem_cons_self
            rw [← same, decoded row member] at firstDecoded
            apply apart row inRest
            rw [Except.ok.inj firstDecoded]
          simp [StoredRow.written, different]
        rw [untouched]
        exact ih addressable.tail inRest

namespace Keyed

variable {test : RowTest} {chosen : List StoredRow} {value : Sql.Value}

theorem foldl_written_of_chosen {row : StoredRow} (keyed : Keyed rows)
    (keeps : KeepsStamp change) (sublist : chosen.Sublist (rows.filterMap test.chosen?))
    (selected : test.chosen? value = some row) (member : row ∈ chosen) :
    chosen.foldl (StoredRow.written change) value = test.rewritten change value := by
  rcases RowTest.stored_of_chosen? selected with ⟨rfl, -⟩
  rw [foldl_written_of_mem keeps (keyed.addressable sublist) member, RowTest.rewritten, selected,
    StoredRow.written]
  simp

theorem foldl_written_of_not_chosen (sublist : chosen.Sublist (rows.filterMap test.chosen?))
    (passed : ∀ row ∈ chosen, test.chosen? value ≠ some row) :
    chosen.foldl (StoredRow.written change) value = value := by
  apply foldl_written_of_ne
  intro row member same
  rcases List.mem_filterMap.1 (sublist.subset member) with ⟨origin, -, selected⟩
  have sameValue := (RowTest.stored_of_chosen? selected).1
  apply passed row member
  rw [same, ← sameValue, selected]

theorem map_foldl_written_all (keyed : Keyed rows) (keeps : KeepsStamp change) :
    rows.map (fun value => (rows.filterMap test.chosen?).foldl (StoredRow.written change) value) =
      rows.map (test.rewritten change) := by
  apply List.map_congr_left
  intro value member
  cases selected : test.chosen? value with
  | none =>
      have same : test.rewritten change value = value := by rw [RowTest.rewritten, selected]
      rw [same]
      apply foldl_written_of_not_chosen (List.Sublist.refl _)
      intro row inChosen
      simp [selected]
  | some row =>
      have inChosen : row ∈ rows.filterMap test.chosen? :=
        List.mem_filterMap.2 ⟨value, member, selected⟩
      exact keyed.foldl_written_of_chosen keeps (List.Sublist.refl _) selected inChosen

theorem map_foldl_written_first {front back : List Sql.Value} {row : StoredRow}
    (keyed : Keyed (front ++ value :: back)) (keeps : KeepsStamp change)
    (selected : test.chosen? value = some row)
    (unmatched : ∀ other ∈ front, test.chosen? other = none) :
    (front ++ value :: back).map (fun value => [row].foldl (StoredRow.written change) value) =
      front ++ test.rewritten change value :: back := by
  have sublist : [row].Sublist ((front ++ value :: back).filterMap test.chosen?) := by
    rw [List.singleton_sublist, List.mem_filterMap]
    exact ⟨value, by simp, selected⟩
  have stays (others : List Sql.Value) (passed : ∀ other ∈ others, test.chosen? other ≠ some row) :
      others.map (fun value => [row].foldl (StoredRow.written change) value) = others := by
    have same : ∀ other ∈ others,
        [row].foldl (StoredRow.written change) other = id other := by
      intro other member
      apply foldl_written_of_not_chosen sublist
      simpa using passed other member
    rw [List.map_congr_left same, List.map_id]
  have inFront : ∀ other ∈ front, test.chosen? other ≠ some row := by
    intro other member
    simp [unmatched other member]
  have inBack : ∀ other ∈ back, test.chosen? other ≠ some row := by
    intro other member again
    have behind := (List.pairwise_append.1 keyed.distinct).2.1
    have apart := (List.pairwise_cons.1 behind).1 other member
    exact apart _ _ (RowTest.document?_of_chosen? selected) (RowTest.document?_of_chosen? again) rfl
  rw [List.map_append, List.map_cons, stays front inFront, stays back inBack,
    keyed.foldl_written_of_chosen keeps sublist selected List.mem_cons_self]

end Keyed

/-! ## Changing the chosen documents -/

/-- An operation that fails leaves the rows alone. One that returns a report
has changed them as it says. -/
def Outcome (before : List Sql.Value) (done : List Sql.Value → UpdateReport → Prop) :
    Except Error UpdateReport → List Sql.Value → Prop
  | .error _, after => after = before
  | .ok report, after => done after report

theorem Outcome.mono {before after : List Sql.Value} {result : Except Error UpdateReport}
    {done weaker : List Sql.Value → UpdateReport → Prop}
    (outcome : Outcome before done result after)
    (weaken : ∀ report after, done after report → weaker after report) :
    Outcome before weaker result after := by
  cases result with
  | error error => exact outcome
  | ok report => exact weaken report after outcome

theorem ends_changeChosen (keyed : Keyed rows) (filter : Filter) (limit : Option Nat)
    (patch : Option String) :
    Session.Ends ids name rows (Collection.changeChosen ⟨name, .text⟩ filter limit patch change)
      (Outcome rows fun after report => ∃ test chosen, filter.rowTest = .ok test ∧
        (Scan.handedOut test 0 (limit.filter (0 < ·)) rows).mapM id = .ok chosen ∧
        after = rows.map (fun value => chosen.foldl (StoredRow.written change) value) ∧
        report = ⟨chosen.length, chosen.countP fun row => (change row.document).2⟩) := by
  unfold Collection.changeChosen
  apply (reads_snapshot filter limit).bind
  · intro chosen found
    rcases found with ⟨readable, test, tested, handed⟩
    rw [keyed.map_asRead] at handed
    apply (leaves_writeBack readable patch chosen).bind
    apply Session.Ends.pure
    exact ⟨test, chosen, tested, handed, rfl, rfl⟩
  · intro error
    rfl

theorem RewrittenAll.of_filterMap {test : RowTest} (keyed : Keyed rows)
    (keeps : KeepsStamp change) :
    RewrittenAll test change rows
      (rows.map fun value => (rows.filterMap test.chosen?).foldl (StoredRow.written change) value)
      ⟨(rows.filterMap test.chosen?).length,
        (rows.filterMap test.chosen?).countP fun row => (change row.document).2⟩ := by
  constructor
  · exact keyed.map_foldl_written_all keeps
  · exact List.length_filterMap_eq_countP
  · have modifies : test.modifies change = fun value =>
        ((test.chosen? value).map fun row => (change row.document).2).getD false := by
      funext value
      rw [RowTest.modifies]
      cases test.chosen? value <;> rfl
    rw [List.countP_filterMap, modifies]

/-- Without a limit every row that passes the test is rewritten. -/
theorem ends_changeChosen_all (keyed : Keyed rows) (keeps : KeepsStamp change) (filter : Filter)
    (patch : Option String) :
    Session.Ends ids name rows (Collection.changeChosen ⟨name, .text⟩ filter none patch change)
      (Outcome rows fun after report => ∃ test, filter.rowTest = .ok test ∧
        RewrittenAll test change rows after report) := by
  apply (ends_changeChosen keyed filter none patch).mono
  intro result after outcome
  apply outcome.mono
  intro report after done
  rcases done with ⟨test, chosen, tested, handed, rfl, rfl⟩
  rcases Scan.mapM_handedOut_all handed with ⟨-, rfl⟩
  exact ⟨test, tested, RewrittenAll.of_filterMap keyed keeps⟩

/-- With a limit of one the first row that passes the test is rewritten. -/
theorem ends_changeChosen_first (keyed : Keyed rows) (keeps : KeepsStamp change) (filter : Filter)
    (patch : Option String) :
    Session.Ends ids name rows (Collection.changeChosen ⟨name, .text⟩ filter (some 1) patch change)
      (Outcome rows fun after report => ∃ test, filter.rowTest = .ok test ∧
        RewrittenFirst test change rows after report) := by
  apply (ends_changeChosen keyed filter (some 1) patch).mono
  intro result after outcome
  apply outcome.mono
  intro report after done
  rcases done with ⟨test, chosen, tested, handed, rfl, rfl⟩
  refine ⟨test, tested, ?_⟩
  rcases Scan.mapM_handedOut_one handed with
    ⟨rfl, unmatched⟩ | ⟨front, value, back, row, rfl, rfl, selected, unmatched⟩
  · simp only [List.foldl_nil, List.map_id']
    apply RewrittenFirst.missed
    intro row member
    simp [RowTest.matches, unmatched row member]
  · rw [keyed.map_foldl_written_first keeps selected unmatched]
    have counted : [row].countP (fun row => (change row.document).2) =
        if test.modifies change value then 1 else 0 := by
      simp [RowTest.modifies, selected]
    rw [counted]
    apply RewrittenFirst.found
    · intro other member
      simp [RowTest.matches, unmatched other member]
    · simp [RowTest.matches, selected]

/-- The rows follow earlier ones at the same positions and under the same ids. -/
def Follow (before after : List Sql.Value) : Prop :=
  ∃ successor : Sql.Value → Sql.Value, after = before.map successor ∧
    ∀ row ∈ before, row.Succeeds (successor row)

theorem Keyed.succeeds_foldl_written {test : RowTest} {chosen : List StoredRow} {value : Sql.Value}
    (keyed : Keyed rows) (keeps : KeepsStamp change)
    (sublist : chosen.Sublist (rows.filterMap test.chosen?)) (member : value ∈ rows) :
    value.Succeeds (chosen.foldl (StoredRow.written change) value) := by
  by_cases hit : ∃ row ∈ chosen, test.chosen? value = some row
  · rcases hit with ⟨row, inChosen, selected⟩
    rcases RowTest.stored_of_chosen? selected with ⟨rfl, decoded⟩
    rw [foldl_written_of_mem keeps (keyed.addressable sublist) inChosen, StoredRow.written]
    split
    · have read := RowTest.document?_of_chosen? selected
      rcases keyed.stamped _ member _ read with ⟨id, stamped⟩
      constructor
      · exact ⟨_, rfl⟩
      · intro document again
        have kept := (keeps stamped).of_decode_text (Sql.Value.document?_text.1 again)
        exact ⟨row.document, id, read, stamped, kept⟩
    · exact keyed.succeeds_self member
  · have passed : ∀ row ∈ chosen, test.chosen? value ≠ some row := by
      intro row inChosen selected
      exact hit ⟨row, inChosen, selected⟩
    rw [Keyed.foldl_written_of_not_chosen sublist passed]
    exact keyed.succeeds_self member

theorem Keyed.follow_self (keyed : Keyed rows) : Follow rows rows := by
  refine ⟨id, (List.map_id rows).symm, ?_⟩
  intro row member
  exact keyed.succeeds_self member

theorem Keyed.of_follow {after : List Sql.Value} (keyed : Keyed rows) (follow : Follow rows after) :
    Keyed after := by
  rcases follow with ⟨successor, rfl, each⟩
  exact keyed.map each

theorem ends_changeChosen_follow (keyed : Keyed rows) (keeps : KeepsStamp change) (filter : Filter)
    (limit : Option Nat) (patch : Option String) :
    Session.Ends ids name rows (Collection.changeChosen ⟨name, .text⟩ filter limit patch change)
      fun _ after => Follow rows after := by
  apply (ends_changeChosen keyed filter limit patch).mono
  intro result after outcome
  cases result with
  | error error =>
      rw [Outcome] at outcome
      rw [outcome]
      exact keyed.follow_self
  | ok report =>
      rcases outcome with ⟨test, chosen, tested, handed, rfl, rfl⟩
      refine ⟨_, rfl, ?_⟩
      intro row member
      exact keyed.succeeds_foldl_written keeps (Scan.sublist_of_mapM_handedOut handed) member

end DocTable
