import DocTable.Proofs.Document.Stamped
import DocTable.Proofs.Json.Place

/-!
# Proper documents

No step of an update makes an object repeat a name: names are put in place of
their earlier occurrence. So a document stays proper under every update that
has been read from a proper one, and under every replacement by a proper one.
-/

namespace DocTable

/-- A change that leaves proper documents proper. -/
def KeepsProper (change : Document → Document × Bool) : Prop :=
  ∀ document : Document, (Json.object document).Proper → (Json.object (change document).1).Proper

namespace Document

variable {document : Document} (proper : (Json.object document).Proper)

include proper

theorem proper_put (path : FieldPath) {value : Json} (own : value.Proper) :
    (Json.object (document.put path value)).Proper :=
  (own.write path.segments proper).fieldsOrEmpty

theorem proper_remove (path : FieldPath) : (Json.object (document.remove path)).Proper :=
  (proper.erase path.segments).fieldsOrEmpty

theorem proper_mergeField {field : String × Json} (own : field.2.Proper) :
    (Json.object (document.mergeField field).1).Proper := by
  rcases field with ⟨key, value⟩
  unfold mergeField
  by_cases isId : key = idField
  · simpa only [isId, if_true] using proper
  · simp only [isId, if_false]
    split
    · exact proper
    · exact proper.insert key own

theorem proper_incrementAt (increment : FieldPath × Number) :
    (Json.object (document.incrementAt increment).1).Proper := by
  unfold incrementAt
  split
  · next value found =>
      apply proper_put proper
      unfold incremented? at found
      split at found
      · cases found
        exact trivial
      · next number amount =>
          cases found
          cases number.add? increment.2 <;> exact trivial
      · cases found
  · exact proper

end Document

theorem KeepsProper.applyEach {α : Type} {change : Document → α → Document × Bool}
    {parts : List α} (each : ∀ part ∈ parts, KeepsProper (change · part)) :
    KeepsProper (applyEach change · parts) := by
  intro document proper
  induction parts generalizing document with
  | nil => exact proper
  | cons first rest ih =>
      rcases List.forall_mem_cons.1 each with ⟨own, later⟩
      exact ih later _ (own document proper)

namespace Update

/-- No value that the update puts into a document repeats a name. -/
def Proper : Update → Prop
  | .merge fields => (Json.object fields).Proper
  | .operators assignments _ _ => ∀ part ∈ assignments, part.2.Proper

theorem keepsProper_apply {update : Update} (own : update.Proper) : KeepsProper update.apply := by
  cases update with
  | merge fields =>
      apply KeepsProper.applyEach
      intro field member document proper
      exact document.proper_mergeField proper ((Json.proper_object_iff.1 own).2 field member)
  | operators assignments increments removals =>
      intro document proper
      apply KeepsProper.applyEach
      · intro path member document proper
        exact document.proper_remove proper path
      · apply KeepsProper.applyEach
        · intro increment member document proper
          exact document.proper_incrementAt proper increment
        · apply KeepsProper.applyEach _ _ proper
          intro assignment member document proper
          exact document.proper_put proper assignment.1 (own assignment member)

theorem assignment_proper {entry : String × Json} (own : entry.2.Proper) :
    Ensures (fun part : FieldPath × Json => part.2.Proper) (assignment entry) := by
  apply (Ensures.trivially (target entry.1)).bind
  intro path _
  exact Ensures.pure own

theorem partOfEntry_proper (key : String) {operand : Json} (own : operand.Proper) :
    Ensures (fun part => ∀ assignment ∈ part.assignments, assignment.2.Proper)
      (partOfEntry key operand) := by
  apply partOfEntry_ensures
  · rintro fields assignments rfl read
    have each := (Json.proper_object_iff.1 own).2
    exact (Ensures.mapM fun entry member => assignment_proper (each entry member)).of_ok _ read
  · exact fun _ _ _ _ _ => List.forall_mem_nil _
  · exact fun _ _ => List.forall_mem_nil _

theorem partOfEntries_proper {entries : List (String × Json)}
    (each : ∀ entry ∈ entries, entry.2.Proper) :
    Ensures (fun part => ∀ assignment ∈ part.assignments, assignment.2.Proper)
      (partOfEntries entries) := by
  induction entries with
  | nil => exact Ensures.pure (List.forall_mem_nil _)
  | cons entry rest ih =>
      rcases List.forall_mem_cons.1 each with ⟨own, others⟩
      apply (partOfEntry_proper entry.1 own).bind
      intro first left
      apply (ih others).bind
      intro second right
      exact Ensures.pure (List.forall_mem_append.2 ⟨left, right⟩)

theorem ofDocument_ensures_proper {update : Document} (own : (Json.object update).Proper) :
    Ensures Update.Proper (ofDocument update) := by
  unfold ofDocument
  split
  · split
    · exact Ensures.throw _
    · exact Ensures.pure own
  · split
    · apply (partOfEntries_proper (Json.proper_object_iff.1 own).2).bind
      intro part sound
      exact Ensures.pure sound
    · exact Ensures.throw _

theorem ofDocument_proper {update : Document} (own : (Json.object update).Proper) :
    Ensures (fun update => KeepsProper update.apply) (ofDocument update) :=
  ⟨fun read parsed => keepsProper_apply ((ofDocument_ensures_proper own).of_ok read parsed)⟩

end Update

theorem Document.keepsProper_replaceWith {replacement : Document}
    (own : (Json.object replacement).Proper) : KeepsProper replacement.replaceWith := by
  intro document proper
  rw [replaceWith]
  apply Json.Proper.insertMany _ (Json.proper_object_iff.1 own).2
  cases found : document.get? idField with
  | none => exact Json.proper_empty
  | some id => exact Json.proper_empty.insert idField (proper.get? found)

section Replacement

variable {replacement document : Document} (own : (Json.object replacement).Proper)
  (proper : (Json.object document).Proper)

include own proper

/-- A replacement reports a change exactly if the new document differs from the old one, the order
of keys and the sign of zero aside. -/
theorem Document.changed_replaceWith_iff :
    (replacement.replaceWith document).2 = true ↔
      ¬Json.Reordered Json.SameNumbers (.object (replacement.replaceWith document).1)
        (.object document) := by
  have flag : (replacement.replaceWith document).2 =
    !Json.same (.object (replacement.replaceWith document).1) (.object document) := rfl
  rw [← Json.same_iff_reordered _ _ (keepsProper_replaceWith own document proper), flag,
    Bool.not_eq_true', Bool.not_eq_true]

/-- If the replacement has no id itself, this means that some field other than the id differs. -/
theorem Document.changed_replaceWith_iff_of_plain (plain : replacement.contains idField = false) :
    (replacement.replaceWith document).2 = true ↔
      ∃ key, key ≠ idField ∧ ¬Option.Rel (Json.Reordered Json.SameNumbers)
        (replacement.get? key) (document.get? key) := by
  have distinct := (Json.proper_object_iff.1 own).1
  have fields (key : String) := Document.get?_replaceWith distinct plain document key
  rw [changed_replaceWith_iff own proper, Json.reordered_object_iff
    (Json.proper_object_iff.1 (keepsProper_replaceWith own document proper)).1
    (Json.proper_object_iff.1 proper).1, not_forall]
  apply exists_congr
  intro key
  by_cases isId : key = idField
  · have same := @Json.rel_refl Json.SameNumbers Number.same_self (document.get? idField)
    subst isId
    rw [fields, if_pos rfl]
    exact iff_of_false (not_not_intro same) fun differs => differs.1 rfl
  · rw [fields, if_neg isId, and_iff_right isId]

end Replacement

theorem Document.proper_withId {document : Document} (proper : (Json.object document).Proper)
    (id : String) : (Json.object (document.withId id)).Proper := by
  rcases Json.proper_object_iff.1 (proper.eraseField idField) with ⟨distinct, each⟩
  rcases Document.Stamped.withId document id with ⟨rest, entries, others⟩
  cases entries
  refine Json.proper_object_iff.2 ⟨List.nodup_cons.2 ⟨?_, distinct⟩, ?_⟩
  · intro again
    rcases List.mem_map.1 again with ⟨entry, member, isId⟩
    exact others entry member isId
  · exact List.forall_mem_cons.2 ⟨trivial, each⟩

end DocTable
