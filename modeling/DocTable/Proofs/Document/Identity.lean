import DocTable.Proofs.Json.Proper
import DocTable.Proofs.Verdict
import DocTable.Update.Apply

/-!
# The id under changes

A change can reach a document along a path, by a merge, or as a replacement, and
each of these ways has its own guard: the first name of the path, the name of the
merged field, the check of the replacement. Behind the guards the entry of the id
stays as it is, whatever its value and wherever it stands, and no other entry
comes to stand in front of it.
-/

namespace DocTable

namespace Document

/-- The entries of the id are the same in both documents, and one that is the
first of all entries stays the first. -/
structure KeepsId (before after : Document) : Prop where
  entries_eq : after.entries.filter (·.1 == idField) = before.entries.filter (·.1 == idField)
  head?_eq {value : Json} : before.entries.head? = some (idField, value) →
    after.entries.head? = some (idField, value)

namespace KeepsId

variable {document before after : Document} {key : String}

theorem refl (document : Document) : document.KeepsId document := ⟨rfl, id⟩

theorem trans {middle : Document} (first : before.KeepsId middle) (second : middle.KeepsId after) :
    before.KeepsId after :=
  ⟨second.entries_eq.trans first.entries_eq, fun front => second.head?_eq (first.head?_eq front)⟩

theorem lookup_filter (entries : List (String × Json)) (key : String) :
    (entries.filter (·.1 == key)).lookup key = entries.lookup key := by
  induction entries with
  | nil => rfl
  | cons entry rest ih =>
      rcases entry with ⟨name, value⟩
      by_cases same : name = key
      · simp [same]
      · have other : (key == name) = false := by simpa using Ne.symm same
        simp [same, List.lookup_cons, other, ih]

theorem get?_eq (keeps : before.KeepsId after) : after.get? idField = before.get? idField := by
  rw [Fields.get?, Fields.get?, ← lookup_filter after.entries, keeps.entries_eq, lookup_filter]

/-- Another name is put in place of its own entry or behind all others. -/
theorem insert (document : Document) (other : key ≠ idField) (value : Json) :
    document.KeepsId (Fields.insert document key value) := by
  rcases document with ⟨entries⟩
  have filtered (entries : List (String × Json)) :
      (Fields.insertEntry key value entries).filter (·.1 == idField) =
        entries.filter (·.1 == idField) := by
    induction entries with
    | nil => simp [Fields.insertEntry, other]
    | cons entry rest ih =>
        rcases entry with ⟨name, old⟩
        by_cases same : name = key
        · subst same
          simp [Fields.insertEntry, other]
        · simp [Fields.insertEntry, same, List.filter_cons, ih]
  refine ⟨filtered entries, ?_⟩
  intro id front
  cases entries with
  | nil => cases front
  | cons entry rest =>
      cases front
      simp [Fields.insert, Fields.insertEntry, Ne.symm other]

theorem erase (document : Document) (other : key ≠ idField) :
    document.KeepsId (Fields.erase document key) := by
  rcases document with ⟨entries⟩
  constructor
  · rw [Fields.erase, List.filter_filter]
    apply List.filter_congr
    intro entry _
    by_cases isId : entry.1 = idField
    · simp [isId, Ne.symm other]
    · simp [isId]
  · intro id front
    cases entries with
    | nil => cases front
    | cons entry rest =>
        cases front
        simp [Fields.erase, Ne.symm other]

variable {path : FieldPath}

theorem put (document : Document) (other : path.head ≠ idField) (value : Json) :
    document.KeepsId (document.put path value) := by
  rcases path with ⟨segments, nonempty, quotable⟩
  cases segments with
  | nil => contradiction
  | cons key rest => exact insert document other _

theorem remove (document : Document) (other : path.head ≠ idField) :
    document.KeepsId (document.remove path) := by
  rcases path with ⟨segments, nonempty, quotable⟩
  match segments with
  | [] => contradiction
  | [key] => exact erase document other
  | key :: next :: rest =>
      rw [Document.remove, Json.erase]
      cases Fields.get? document key with
      | none => exact refl document
      | some inner => exact insert document other _

theorem mergeField (document : Document) (field : String × Json) :
    document.KeepsId (document.mergeField field).1 := by
  rcases field with ⟨key, value⟩
  rw [Document.mergeField]
  by_cases isId : key = idField
  · simp only [isId, if_true]
    exact refl document
  · simp only [isId, if_false]
    split
    · exact refl document
    · exact insert document isId value

theorem incrementAt (document : Document) {increment : FieldPath × Number}
    (other : increment.1.head ≠ idField) : document.KeepsId (document.incrementAt increment).1 := by
  rw [Document.incrementAt]
  split
  · exact put document other _
  · exact refl document

theorem applyEach {α : Type} {change : Document → α → Document × Bool} {parts : List α}
    (each : ∀ part ∈ parts, ∀ document : Document, document.KeepsId (change document part).1)
    (document : Document) : document.KeepsId (DocTable.applyEach change document parts).1 := by
  induction parts generalizing document with
  | nil => exact refl document
  | cons first rest ih =>
      rcases List.forall_mem_cons.1 each with ⟨own, later⟩
      exact (own document).trans (ih later _)

end KeepsId

end Document

namespace Update

/-- No path of the update leads to or into the id. -/
def SparesId : Update → Prop
  | .merge _ => True
  | .operators assignments increments removals =>
      (∀ part ∈ assignments, part.1.head ≠ idField) ∧
        (∀ part ∈ increments, part.1.head ≠ idField) ∧ ∀ path ∈ removals, path.head ≠ idField

theorem SparesId.keepsId_apply {update : Update} (spares : update.SparesId)
    (document : Document) : document.KeepsId (update.apply document).1 := by
  cases update with
  | merge fields =>
      exact Document.KeepsId.applyEach (fun field _ document => .mergeField document field) document
  | operators assignments increments removals =>
      rcases spares with ⟨assigned, incremented, removed⟩
      have set (document : Document) : document.KeepsId
          (applyEach (fun document part => document.set part.1 part.2) document assignments).1 :=
        .applyEach (fun part member document => .put document (assigned part member) part.2)
          document
      have add (document : Document) :
          document.KeepsId (applyEach Document.incrementAt document increments).1 :=
        .applyEach (fun part member document => .incrementAt document (incremented part member))
          document
      have remove (document : Document) :
          document.KeepsId (applyEach Document.unset document removals).1 :=
        .applyEach (fun path member document => .remove document (removed path member)) document
      exact (set document).trans ((add _).trans (remove _))

theorem target_ensures (field : String) :
    Ensures (fun path => path.head ≠ idField) (target field) := by
  apply (Ensures.trivially (FieldPath.parse field)).bind
  intro path _
  split
  · exact Ensures.throw _
  · next other => exact Ensures.pure other

theorem assignment_ensures (entry : String × Json) :
    Ensures (fun part : FieldPath × Json => part.1.head ≠ idField) (assignment entry) := by
  apply (target_ensures entry.1).bind
  intro path other
  exact Ensures.pure other

theorem increment_ensures (entry : String × Json) :
    Ensures (fun part : FieldPath × Number => part.1.head ≠ idField) (increment entry) := by
  rcases entry with ⟨field, operand⟩
  cases operand with
  | number amount =>
      apply (target_ensures field).bind
      intro path other
      exact Ensures.pure other
  | _ => exact Ensures.throw _

/-- What an operator contributes to an update that spares the id. -/
def Part.SparesId (part : Part) : Prop :=
  Update.SparesId (.operators part.assignments part.increments part.removals)

theorem key_of_ofKey? {key : String} (operator : UpdateOperator.ofKey? key = some .increment) :
    key = "$inc" := by
  by_contra other
  rw [UpdateOperator.ofKey?, if_neg other] at operator
  split at operator
  · cases operator
  · split at operator <;> cases operator

/-- What an operator contributes has been read from the entries of its operand, and what is
removed from their names or from a list of names. -/
theorem partOfEntry_ensures {property : Part → Prop} {key : String} {operand : Json}
    (assigns : ∀ fields assignments, operand = .object fields →
      fields.entries.mapM assignment = .ok assignments → property { assignments := assignments })
    (adds : ∀ fields increments, key = "$inc" → operand = .object fields →
      fields.entries.mapM increment = .ok increments → property { increments := increments })
    (removes : ∀ removals : List FieldPath, (∀ path ∈ removals, ∃ field, target field = .ok path) →
      property { removals := removals }) :
    Ensures property (partOfEntry key operand) := by
  have ofObject {step : List (String × Json) → Except Error Part}
      (sound : ∀ fields, operand = .object fields → Ensures property (step fields.entries)) :
      Ensures property (fieldsOperand key operand >>= step) := by
    cases operand with
    | object fields => exact sound fields rfl
    | _ => exact Ensures.throw _
  have ofNames {α : Type} {step : α → Except Error FieldPath} (named : ∀ element,
      Ensures (fun path => ∃ field, target field = .ok path) (step element)) (elements : List α) :
      Ensures property (do return { removals := ← elements.mapM step }) := by
    apply (Ensures.mapM fun element _ => named element).bind
    intro removals sound
    exact Ensures.pure (removes removals sound)
  unfold partOfEntry
  split
  · apply ofObject
    intro fields isObject
    constructor
    intro part read
    rcases exists_of_bind_eq_ok read with ⟨assignments, each, whole⟩
    cases whole
    exact assigns fields assignments isObject each
  · next operator =>
      apply ofObject
      intro fields isObject
      constructor
      intro part read
      rcases exists_of_bind_eq_ok read with ⟨increments, each, whole⟩
      cases whole
      exact adds fields increments (key_of_ofKey? operator) isObject each
  · split
    · apply ofNames
      intro element
      cases element with
      | string field => exact ⟨fun path read => ⟨field, read⟩⟩
      | _ => exact Ensures.throw _
    · apply ofObject
      intro fields _
      exact ofNames (fun entry => ⟨fun path read => ⟨entry.1, read⟩⟩) fields.entries
  · exact Ensures.throw _

theorem partOfEntry_sparesId (key : String) (operand : Json) :
    Ensures Part.SparesId (partOfEntry key operand) := by
  apply partOfEntry_ensures
  · intro fields assignments _ read
    have spared := (Ensures.mapM fun entry _ => assignment_ensures entry).of_ok assignments read
    exact ⟨spared, by simp, by simp⟩
  · intro fields increments _ _ read
    have spared := (Ensures.mapM fun entry _ => increment_ensures entry).of_ok increments read
    exact ⟨by simp, spared, by simp⟩
  · intro removals named
    refine ⟨by simp, by simp, ?_⟩
    intro path member
    rcases named path member with ⟨field, read⟩
    exact (target_ensures field).of_ok path read

theorem Part.SparesId.append {first second : Part} (left : first.SparesId)
    (right : second.SparesId) : (first.append second).SparesId := by
  refine ⟨?_, ?_, ?_⟩
  · exact List.forall_mem_append.2 ⟨left.1, right.1⟩
  · exact List.forall_mem_append.2 ⟨left.2.1, right.2.1⟩
  · exact List.forall_mem_append.2 ⟨left.2.2, right.2.2⟩

theorem partOfEntries_ensures (entries : List (String × Json)) :
    Ensures Part.SparesId (partOfEntries entries) := by
  induction entries with
  | nil => exact Ensures.pure ⟨by simp, by simp, by simp⟩
  | cons entry rest ih =>
      apply (partOfEntry_sparesId entry.1 entry.2).bind
      intro first left
      apply ih.bind
      intro second right
      exact Ensures.pure (left.append right)

theorem ofDocument_sparesId (update : Document) :
    Ensures Update.SparesId (ofDocument update) := by
  unfold ofDocument
  split
  · split
    · exact Ensures.throw _
    · exact Ensures.pure trivial
  · split
    · apply (partOfEntries_ensures update.entries).bind
      intro part spared
      exact Ensures.pure spared
    · exact Ensures.throw _

end Update

/-! ## Replacements -/

namespace Document

variable {replacement : Document}

theorem ne_idField (plain : replacement.contains idField = false) {entry : String × Json}
    (member : entry ∈ replacement.entries) : entry.1 ≠ idField := by
  have missing : replacement.entries.lookup idField = none := by
    simpa [Fields.contains, Fields.get?] using plain
  have different := List.lookup_eq_none_iff.1 missing entry member
  exact Ne.symm (by simpa using different)

theorem entries_replaceWith (distinct : replacement.Distinct)
    (plain : replacement.contains idField = false) (document : Document) :
    (replacement.replaceWith document).1.entries =
      (document.get? idField).toList.map (idField, ·) ++ replacement.entries := by
  rw [replaceWith]
  cases document.get? idField with
  | none =>
      rw [Fields.insertMany_of_notMem (fun _ _ => List.not_mem_nil) distinct]
      rfl
  | some id =>
      have fresh : ∀ entry ∈ replacement.entries, entry.1 ∉ Fields.keys ⟨[(idField, id)]⟩ :=
        fun entry member isId => ne_idField plain member (List.mem_singleton.1 isId)
      rw [Fields.insertMany_of_notMem fresh distinct]
      rfl

theorem get?_replaceWith (distinct : replacement.Distinct)
    (plain : replacement.contains idField = false) (document : Document) (key : String) :
    (replacement.replaceWith document).1.get? key =
      if key = idField then document.get? idField else replacement.get? key := by
  rw [Fields.get?, entries_replaceWith distinct plain]
  by_cases isId : key = idField
  · subst isId
    have missing : replacement.entries.lookup idField = none := by
      simpa [Fields.contains, Fields.get?] using plain
    rw [if_pos rfl]
    cases document.get? idField with
    | none => exact missing
    | some id => exact List.lookup_cons_self
  · rw [if_neg isId]
    cases document.get? idField with
    | none => rfl
    | some id =>
        rw [Option.toList_some, List.map_singleton, List.singleton_append, List.lookup_cons,
          beq_false_of_ne isId]
        rfl

end Document

/-- The id is immutable. An update that has been read, and any merge, leaves the
value of the id as it is, or missing, and keeps it in front of the other fields if
it was there. A replacement that carries no id itself, as `Collection.replace` demands,
comes to stand behind the value of the id, or alone if that is missing. -/
theorem id_immutable :
    (∀ update : Update,
      (∃ source, Update.ofDocument source = .ok update) ∨ (∃ fields, update = .merge fields) →
        ∀ document : Document,
          (update.apply document).1.get? idField = document.get? idField ∧
            ∀ id, document.entries.head? = some (idField, id) →
              (update.apply document).1.entries.head? = some (idField, id)) ∧
      ∀ replacement : Document, replacement.Distinct → replacement.contains idField = false →
        ∀ document, (replacement.replaceWith document).1.entries =
          (document.get? idField).toList.map (idField, ·) ++ replacement.entries := by
  constructor
  · intro update origin document
    have spares : update.SparesId := by
      rcases origin with ⟨source, read⟩ | ⟨fields, rfl⟩
      · exact (Update.ofDocument_sparesId source).of_ok update read
      · trivial
    have keeps := spares.keepsId_apply document
    exact ⟨keeps.get?_eq, fun _ front => keeps.head?_eq front⟩
  · intro replacement distinct plain document
    exact Document.entries_replaceWith distinct plain document

/-- An update writes to a field of the same name further down, and a replacement finds
an id that is no string and stands last. -/
theorem id_immutable_of_nested :
    (∃ update,
      Update.ofDocument ⟨[("$set", .object ⟨[("name._id", .null)]⟩)]⟩ = .ok update ∧
        (update.apply ⟨[("_id", .bool true), ("name", .string "x")]⟩).1.get? idField =
          some (.bool true) ∧
        (update.apply ⟨[("_id", .bool true), ("name", .string "x")]⟩).1.entries.head? =
          some ("_id", .bool true)) ∧
      (Document.replaceWith ⟨[("name", .null)]⟩
        ⟨[("name", .string "x"), ("_id", .bool true)]⟩).1.entries =
          [("_id", .bool true), ("name", .null)] := by
  refine ⟨⟨_, rfl, ?_⟩, ?_⟩
  · have kept := id_immutable.1 _ (.inl ⟨⟨[("$set", .object ⟨[("name._id", .null)]⟩)]⟩, rfl⟩)
      ⟨[("_id", .bool true), ("name", .string "x")]⟩
    exact ⟨kept.1, kept.2 _ rfl⟩
  · exact id_immutable.2 ⟨[("name", .null)]⟩ (by simp [Fields.Distinct, Fields.keys]) rfl _

end DocTable
