import DocTable.Proofs.Collection.Rewriting

/-!
# Operations on a keyed table

The operations of a collection as data, and what each of them does to a keyed
table of texts: whether it succeeds or fails, the table stays keyed, and the
rows behind it are related to those before it in the way its name promises.
-/

namespace DocTable

variable {ι α : Type} {ids : IdSource ι} {name : String} {rows : List Sql.Value}

open Session

/-- A document that has been stored stands in the last row, under an id that no
document before it had. -/
def Inserted (before : List Sql.Value) (document : Document) :
    Except Error String → List Sql.Value → Prop
  | .error _, after => after = before
  | .ok id, after => after = before ++ [.text (document.withId id).text] ∧
      ∀ row ∈ before, ∀ other, row.document? = some other → ¬other.Stamped id

theorem reads_stamp (document : Document) :
    Reads ids name rows (Collection.stamp document) fun stamped =>
      stamped.2 = document.withId stamped.1 := by
  unfold Collection.stamp
  apply Ends.lift
  · intro supplied read
    cases supplied with
    | none =>
        apply Ends.freshId
        intro fresh
        exact Reads.pure rfl
    | some own => exact Reads.pure rfl
  · intro error failed
    exact ⟨rfl, nofun⟩

theorem ends_insertOne (document : Document) :
    Ends ids name rows (Collection.insertOne ⟨name, .text⟩ document) (Inserted rows document) := by
  unfold Collection.insertOne
  apply (reads_stamp document).bind
  · intro both front
    rcases both with ⟨id, stamped⟩
    simp only at front
    subst front
    apply (reads_isTaken id).bind
    · intro taken free
      cases taken with
      | true => exact Ends.done rfl
      | false =>
          rcases free rfl with ⟨readable, free⟩
          have stored : MemoryStore.affect rows (.insert (document.withId id).text) =
              .ok (1, rows ++ [.text (document.withId id).text]) := rfl
          apply (leaves_execute readable rfl stored (by simp)).bind
          exact Ends.pure ⟨rfl, free⟩
    · intro error
      rfl
  · intro error
    rfl

theorem Keyed.inserted {document : Document} {result : Except Error String}
    {after : List Sql.Value} (keyed : Keyed rows) (inserted : Inserted rows document result after) :
    Keyed after := by
  cases result with
  | error error =>
      rw [Inserted] at inserted
      rw [inserted]
      exact keyed
  | ok id =>
      rcases inserted with ⟨rfl, free⟩
      exact keyed.append (Document.Stamped.withId document id) free

/-- Whether they are all stored or not, documents are appended in order, each under some id. -/
theorem ends_insertMany (keyed : Keyed rows) (documents : List Document) :
    Ends ids name rows (Collection.insertMany ⟨name, .text⟩ documents) fun _ after =>
      Keyed after ∧ ∃ own : List String,
        after = rows ++ (List.zipWith Document.withId documents own).map Document.row := by
  induction documents generalizing rows with
  | nil => exact Ends.pure ⟨keyed, [], (List.append_nil rows).symm⟩
  | cons document rest ih =>
      rw [Collection.insertMany]
      apply (ends_insertOne document).bind
      · intro id after inserted
        have keyedAfter := keyed.inserted inserted
        rcases inserted with ⟨rfl, -⟩
        apply (ih keyedAfter).bind
        · intro ids last outcome
          rcases outcome with ⟨keyedLast, own, rfl⟩
          exact Ends.pure ⟨keyedLast, id :: own, List.append_assoc _ _ _⟩
        · intro error last outcome
          rcases outcome with ⟨keyedLast, own, rfl⟩
          exact ⟨keyedLast, id :: own, List.append_assoc _ _ _⟩
      · intro error after unchanged
        rw [Inserted] at unchanged
        rw [unchanged]
        exact ⟨keyed, [], by simp⟩

/-- Whether a value is the text of one of some rows. -/
def isTextOf (chosen : List StoredRow) (value : Sql.Value) : Bool :=
  chosen.any fun row => value == .text row.raw

theorem countP_add_countP_filter (first second : Sql.Value → Bool) :
    rows.countP first + (rows.filter (!first ·)).countP second =
      rows.countP fun value => first value || second value := by
  induction rows with
  | nil => rfl
  | cons value rest ih =>
      cases hit : first value with
      | true =>
          simp only [List.countP_cons, List.filter_cons, hit, ← ih]
          simp
          omega
      | false =>
          simp only [List.countP_cons, List.filter_cons, hit, ← ih]
          simp [List.countP_cons]
          omega

/-- A row is found again by its text, so every row with this text is deleted. -/
theorem leaves_deleteRows (readable : MemoryStore.isReadable name = true)
    (chosen : List StoredRow) :
    Leaves ids name rows (Collection.deleteRows ⟨name, .text⟩ chosen)
      (rows.countP (isTextOf chosen)) (rows.filter (!isTextOf chosen ·)) := by
  induction chosen generalizing rows with
  | nil =>
      apply Ends.pure
      have none : rows.countP (isTextOf []) = 0 := List.countP_eq_zero.2 (by simp [isTextOf])
      have all : rows.filter (!isTextOf [] ·) = rows := List.filter_eq_self.2 (by simp [isTextOf])
      exact ⟨congrArg Except.ok none.symm, all.symm⟩
  | cons row rest ih =>
      rw [Collection.deleteRows]
      have removed : MemoryStore.affect rows (.delete (.text row.raw)) =
          .ok (rows.countP (· == .text row.raw), rows.filter (!· == .text row.raw)) := rfl
      apply (leaves_execute readable rfl removed (by simp)).bind
      apply ih.bind
      apply Ends.pure
      constructor
      · rw [countP_add_countP_filter]
        rfl
      · rw [List.filter_filter]
        apply List.filter_congr
        intro value member
        simp [isTextOf, Bool.and_comm]

theorem ends_deleteSnapshot (filter : Filter) (limit : Option Nat) :
    Ends ids name rows
      (Collection.snapshot ⟨name, .text⟩ filter limit >>= Collection.deleteRows ⟨name, .text⟩)
      fun _ after => after.Sublist rows := by
  apply (reads_snapshot filter limit).bind
  · intro chosen found
    apply (leaves_deleteRows found.1 chosen).mono
    intro result after outcome
    rw [outcome.2]
    exact List.filter_sublist
  · intro error
    exact List.Sublist.refl _

theorem ends_deleteOne (filter : Filter) :
    Ends ids name rows (Collection.deleteOne ⟨name, .text⟩ filter) fun _ after =>
      after.Sublist rows :=
  ends_deleteSnapshot filter (some 1)

/-- No command about chosen rows can be expressed, so all rows are read. -/
theorem Filter.callWhere?_eq (filter : Filter) (command : Sql.Predicate → Sql.Command) :
    filter.callWhere? .text name command = (fun _ => none) <$> filter.rowTest := by
  rw [Filter.callWhere?, Filter.choice_text]
  cases filter.rowTest <;> rfl

theorem Filter.callWhere?_text {filter : Filter} {command : Sql.Predicate → Sql.Command}
    {call : Option Sql.Call} (planned : filter.callWhere? .text name command = .ok call) :
    call = none := by
  rw [Filter.callWhere?_eq] at planned
  cases tested : filter.rowTest with
  | error error =>
      rw [tested] at planned
      cases planned
  | ok test =>
      rw [tested] at planned
      cases planned
      rfl

theorem ends_deleteMany (filter : Filter) :
    Ends ids name rows (Collection.deleteMany ⟨name, .text⟩ filter) fun _ after =>
      after.Sublist rows := by
  unfold Collection.deleteMany
  apply Ends.lift
  · intro call planned
    rw [Filter.callWhere?_text planned]
    exact ends_deleteSnapshot filter none
  · intro error failed
    exact List.Sublist.refl _

theorem reads_count (filter : Filter) :
    Reads ids name rows (Collection.count ⟨name, .text⟩ filter) fun _ => True := by
  unfold Collection.count
  apply Ends.lift
  · intro call planned
    rw [Filter.callWhere?_text planned]
    apply (reads_find filter {}).bind
    · intro cursor found
      apply Ends.lift
      · intro documents read
        exact Reads.pure trivial
      · intro error failed
        exact ⟨rfl, nofun⟩
    · intro error
      exact ⟨rfl, nofun⟩
  · intro error failed
    exact ⟨rfl, nofun⟩

/-- What is done to the chosen documents. -/
inductive Change where
  | update (update : Document)
  | replacement (replacement : Document)

namespace Change

/-- The function that a change applies to each chosen document, if it is
well formed. It also tells whether the document has changed. -/
def function : Change → Except Error (Document → Document × Bool)
  | .update document => Update.apply <$> Update.ofDocument document
  | .replacement document => do
      checkReplacement document
      if document.contains idField then throw (UpdateError.idReplaced : Error)
      else return document.replaceWith

/-- Changes the documents that a filter chooses, at most as many as the limit. -/
def session (collection : Collection) (filter : Filter) (limit : Option Nat) :
    Change → Session UpdateReport
  | .update document => collection.update filter document limit
  | .replacement document => collection.replace filter document limit

/-- Changes the first document that a filter chooses. -/
def applyOne (collection : Collection) (filter : Filter) : Change → Session UpdateReport
  | .update document => collection.updateOne filter document
  | .replacement document => collection.replaceOne filter document

/-- Changes every document that a filter chooses. -/
def applyMany (collection : Collection) (filter : Filter) : Change → Session UpdateReport
  | .update document => collection.updateMany filter document
  | .replacement document => collection.replaceMany filter document

theorem applyOne_eq (collection : Collection) (filter : Filter) (change : Change) :
    change.applyOne collection filter = change.session collection filter (some 1) := by
  cases change <;> rfl

theorem applyMany_eq (collection : Collection) (filter : Filter) (change : Change) :
    change.applyMany collection filter = change.session collection filter none := by
  cases change <;> rfl

/-- A change applies its function to the chosen documents, and the function
leaves every id in place. A change that is not well formed makes no call. -/
theorem ends_session {filter : Filter} {limit : Option Nat} {change : Change}
    {post : Except Error UpdateReport → List Sql.Value → Prop}
    (each : ∀ function patch, change.function = .ok function → KeepsStamp function →
      Ends ids name rows (Collection.changeChosen ⟨name, .text⟩ filter limit patch function) post)
    (refused : ∀ error, post (.error error) rows) :
    Ends ids name rows (change.session ⟨name, .text⟩ filter limit) post := by
  cases change with
  | update document =>
      rw [session, Collection.update]
      apply Ends.lift
      · intro update read
        apply each
        · rw [function, read]
          rfl
        · exact (Update.ofDocument_ensures document).of_ok update read
      · intro error failed
        exact refused error
  | replacement document =>
      rw [session, Collection.replace]
      apply Ends.lift
      · intro checked read
        cases named : document.contains idField with
        | true => exact Ends.done (refused _)
        | false =>
            apply each
            · rw [function, read, named]
              rfl
            · exact Document.keepsStamp_replaceWith named
      · intro error failed
        exact refused error

theorem ends_follow {filter : Filter} {limit : Option Nat} {change : Change}
    (keyed : Keyed rows) :
    Ends ids name rows (change.session ⟨name, .text⟩ filter limit)
      fun _ after => Follow rows after := by
  apply ends_session
  · intro function patch _ keeps
    exact ends_changeChosen_follow keyed keeps filter limit patch
  · intro error
    exact keyed.follow_self

theorem ends_outcome {filter : Filter} {limit : Option Nat} {change : Change}
    {related : RowTest → (Document → Document × Bool) → List Sql.Value → List Sql.Value →
      UpdateReport → Prop}
    (each : ∀ function patch, KeepsStamp function →
      Ends ids name rows (Collection.changeChosen ⟨name, .text⟩ filter limit patch function)
        (Outcome rows fun after report => ∃ test, filter.rowTest = .ok test ∧
          related test function rows after report)) :
    Ends ids name rows (change.session ⟨name, .text⟩ filter limit)
      (Outcome rows fun after report => ∃ test function, filter.rowTest = .ok test ∧
        change.function = .ok function ∧ related test function rows after report) := by
  apply ends_session
  · intro function patch read keeps
    apply (each function patch keeps).mono
    intro result after outcome
    apply outcome.mono
    intro report after done
    rcases done with ⟨test, tested, holds⟩
    exact ⟨test, function, tested, read, holds⟩
  · intro error
    rfl

/-- An update or a replacement of many documents rewrites those that match. -/
theorem ends_applyMany (keyed : Keyed rows) (filter : Filter) (change : Change) :
    Ends ids name rows (change.applyMany ⟨name, .text⟩ filter)
      (Outcome rows fun after report => ∃ test function, filter.rowTest = .ok test ∧
        change.function = .ok function ∧ RewrittenAll test function rows after report) := by
  rw [applyMany_eq]
  apply ends_outcome
  intro function patch keeps
  exact ends_changeChosen_all keyed keeps filter patch

/-- An update or a replacement of one document rewrites the first that matches. -/
theorem ends_applyOne (keyed : Keyed rows) (filter : Filter) (change : Change) :
    Ends ids name rows (change.applyOne ⟨name, .text⟩ filter)
      (Outcome rows fun after report => ∃ test function, filter.rowTest = .ok test ∧
        change.function = .ok function ∧ RewrittenFirst test function rows after report) := by
  rw [applyOne_eq]
  apply ends_outcome
  intro function patch keeps
  exact ends_changeChosen_first keyed keeps filter patch

end Change

/-! ## Operations -/

/-- An operation on a collection with its arguments. -/
inductive Operation where
  | insertOne (document : Document)
  | insertMany (documents : List Document)
  | changeOne (filter : Filter) (change : Change)
  | changeMany (filter : Filter) (change : Change)
  | deleteOne (filter : Filter)
  | deleteMany (filter : Filter)
  | find (filter : Filter) (options : FindOptions)
  | count (filter : Filter)

/-- A session whose value does not matter. -/
def Session.ignoring (session : Session α) : Session Unit := do
  let _ ← session

theorem Session.Ends.ignoring {session : Session α}
    {post : Except Error α → List Sql.Value → Prop} {last : List Sql.Value → Prop}
    (ends : Ends ids name rows session post)
    (weaken : ∀ result after, post result after → last after) :
    Ends ids name rows (Session.ignoring session) fun _ after => last after := by
  apply ends.bind
  · intro value after holds
    exact Ends.pure (weaken _ after holds)
  · intro error after holds
    exact weaken _ after holds

/-- What an operation does, without its result. -/
def Operation.session (collection : Collection) : Operation → Session Unit
  | .insertOne document => Session.ignoring (collection.insertOne document)
  | .insertMany documents => Session.ignoring (collection.insertMany documents)
  | .changeOne filter change => Session.ignoring (change.applyOne collection filter)
  | .changeMany filter change => Session.ignoring (change.applyMany collection filter)
  | .deleteOne filter => Session.ignoring (collection.deleteOne filter)
  | .deleteMany filter => Session.ignoring (collection.deleteMany filter)
  | .find filter options => Session.ignoring (collection.find filter options)
  | .count filter => Session.ignoring (collection.count filter)

/-- Behind the rows that can be read before and after, at the same position,
stand documents with the same id. -/
structure KeepsIds (before after : List Sql.Value) : Prop where
  length : after.length = before.length
  same : ∀ (position : Nat) (earlier later : Document),
    before[position]?.bind Sql.Value.document? = some earlier →
    after[position]?.bind Sql.Value.document? = some later → later.id? = earlier.id?

theorem Follow.keepsIds {before after : List Sql.Value} (follow : Follow before after) :
    KeepsIds before after := by
  rcases follow with ⟨successor, rfl, each⟩
  constructor
  · exact List.length_map _
  · intro position earlier later earlierRead laterRead
    rw [List.getElem?_map] at laterRead
    cases found : before[position]? with
    | none => simp [found] at earlierRead
    | some row =>
        simp only [found, Option.map_some, Option.bind_some] at earlierRead laterRead
        have member : row ∈ before := List.mem_of_getElem? found
        rcases (each row member).stamp later laterRead with
          ⟨own, id, ownRead, ownStamped, laterStamped⟩
        rw [earlierRead, Option.some.injEq] at ownRead
        rw [ownRead, ownStamped.id?_eq, laterStamped.id?_eq]

/-- How an operation may change the rows of a table. -/
def Operation.Permits (before after : List Sql.Value) : Operation → Prop
  | .insertOne _ => after = before ∨ ∃ row, after = before ++ [row]
  | .insertMany _ => ∃ added, after = before ++ added
  | .changeOne .. | .changeMany .. => KeepsIds before after
  | .deleteOne _ | .deleteMany _ => after.Sublist before
  | .find .. | .count _ => after = before

namespace Operation

/-- One operation, whether it succeeds or fails, keeps a table keyed and does to
its rows what its name permits. -/
theorem ends_session (keyed : Keyed rows) (operation : Operation) :
    Ends ids name rows (operation.session ⟨name, .text⟩) fun _ after =>
      Keyed after ∧ operation.Permits rows after := by
  cases operation with
  | insertOne document =>
      apply (ends_insertOne document).ignoring
      intro result after inserted
      refine ⟨keyed.inserted inserted, ?_⟩
      cases result with
      | error error => exact .inl inserted
      | ok id => exact .inr ⟨_, inserted.1⟩
  | insertMany documents =>
      apply (ends_insertMany keyed documents).ignoring
      intro result after inserted
      rcases inserted with ⟨keyedAfter, own, rfl⟩
      exact ⟨keyedAfter, _, rfl⟩
  | changeOne filter change =>
      rw [session, Change.applyOne_eq]
      apply (Change.ends_follow keyed).ignoring
      intro result after follow
      exact ⟨keyed.of_follow follow, follow.keepsIds⟩
  | changeMany filter change =>
      rw [session, Change.applyMany_eq]
      apply (Change.ends_follow keyed).ignoring
      intro result after follow
      exact ⟨keyed.of_follow follow, follow.keepsIds⟩
  | deleteOne filter =>
      apply (ends_deleteOne filter).ignoring
      intro result after fewer
      exact ⟨keyed.sublist fewer, fewer⟩
  | deleteMany filter =>
      apply (ends_deleteMany filter).ignoring
      intro result after fewer
      exact ⟨keyed.sublist fewer, fewer⟩
  | find filter options =>
      apply Ends.ignoring (reads_find filter options)
      intro result after outcome
      rcases outcome with ⟨rfl, -⟩
      exact ⟨keyed, rfl⟩
  | count filter =>
      apply Ends.ignoring (reads_count filter)
      intro result after outcome
      rcases outcome with ⟨rfl, -⟩
      exact ⟨keyed, rfl⟩

end Operation

end DocTable
