import DocTable.Proofs.Update.Edit

/-!
# Merging fields

A field is settled in a document if merging it changes nothing: the document has its
value already, or the field is the id. Merging settles the field and leaves the others
as they are, so after a merge all its fields are settled, and the flag of a merge tells
whether they were before.
-/

namespace DocTable

open Json

theorem applyEach_cons {α : Type} (change : Document → α → Document × Bool) (document : Document)
    (first : α) (rest : List α) :
    applyEach change document (first :: rest) =
      ((applyEach change (change document first).1 rest).1,
        (change document first).2 || (applyEach change (change document first).1 rest).2) := rfl

namespace Document

/-- Merging the field would change nothing. -/
def Settled (document : Document) (field : String × Json) : Prop :=
  field.1 = idField ∨ sameOption (document.get? field.1) (some field.2) = true

variable {document after : Document} {field other : String × Json} {fields : List (String × Json)}

theorem mergeField_of_settled (settled : document.Settled field) :
    document.mergeField field = (document, false) := by
  rw [mergeField]
  by_cases isId : field.1 = idField
  · rw [if_pos isId]
  · rw [if_neg isId, if_pos (settled.resolve_left isId)]

theorem mergeField_of_not_settled (unsettled : ¬document.Settled field) :
    document.mergeField field = (Fields.insert document field.1 field.2, true) := by
  rw [Settled, not_or] at unsettled
  rw [mergeField, if_neg unsettled.1, if_neg unsettled.2]

theorem settled_mergeField (own : field.2.Proper) :
    Settled (document.mergeField field).1 field := by
  by_cases settled : document.Settled field
  · rwa [mergeField_of_settled settled]
  · rw [mergeField_of_not_settled settled]
    refine .inr ?_
    rw [Fields.get?_insert_self]
    exact same_self field.2 own

theorem settled_mergeField_of_ne (different : other.1 ≠ field.1)
    (settled : document.Settled other) : Settled (document.mergeField field).1 other := by
  by_cases merged : document.Settled field
  · rwa [mergeField_of_settled merged]
  · rw [mergeField_of_not_settled merged, Settled, Fields.get?_insert_of_ne _ _ different]
    exact settled

theorem applyEach_mergeField_of_settled (settled : ∀ field ∈ fields, document.Settled field) :
    applyEach mergeField document fields = (document, false) := by
  induction fields with
  | nil => rfl
  | cons field rest ih =>
      rcases List.forall_mem_cons.1 settled with ⟨own, later⟩
      rw [applyEach_cons, mergeField_of_settled own, ih later]
      rfl

theorem applyEach_mergeField_of_false
    (unchanged : (applyEach mergeField document fields).2 = false) :
    applyEach mergeField document fields = (document, false) := by
  induction fields generalizing document with
  | nil => rfl
  | cons field rest ih =>
      rw [applyEach_cons] at unchanged ⊢
      rw [Bool.or_eq_false_iff] at unchanged
      by_cases settled : document.Settled field
      · rw [mergeField_of_settled settled] at unchanged ⊢
        rw [ih unchanged.2]
        rfl
      · rw [mergeField_of_not_settled settled] at unchanged
        cases unchanged.1

theorem settled_applyEach_of_notMem (fresh : other.1 ∉ fields.map (·.1))
    (settled : document.Settled other) :
    Settled (applyEach mergeField document fields).1 other := by
  induction fields generalizing document with
  | nil => exact settled
  | cons field rest ih =>
      rw [List.map_cons, List.mem_cons, not_or] at fresh
      exact ih fresh.2 (settled_mergeField_of_ne fresh.1 settled)

theorem settled_applyEach (distinct : (fields.map (·.1)).Nodup)
    (own : ∀ field ∈ fields, field.2.Proper) :
    ∀ field ∈ fields, Settled (applyEach mergeField document fields).1 field := by
  induction fields generalizing document with
  | nil => exact List.forall_mem_nil _
  | cons field rest ih =>
      rcases List.nodup_cons.1 distinct with ⟨fresh, distinct⟩
      rcases List.forall_mem_cons.1 own with ⟨first, own⟩
      refine List.forall_mem_cons.2 ⟨?_, ih distinct own⟩
      rw [applyEach_cons]
      exact settled_applyEach_of_notMem fresh (settled_mergeField first)

end Document

namespace Update

variable {fields document : Document}

theorem settled_merge (own : (Json.object fields).Proper) :
    ∀ field ∈ fields.entries, Document.Settled ((merge fields).apply document).1 field :=
  Document.settled_applyEach (proper_object_iff.1 own).1 (proper_object_iff.1 own).2

theorem merge_apply_merge (own : (Json.object fields).Proper) :
    (merge fields).apply ((merge fields).apply document).1 =
      (((merge fields).apply document).1, false) :=
  Document.applyEach_mergeField_of_settled (settled_merge own)

theorem merge_changes_iff (own : (Json.object fields).Proper)
    (proper : (Json.object document).Proper) :
    ((merge fields).apply document).2 = true ↔
      same (.object ((merge fields).apply document).1) (.object document) = false := by
  rw [← not_iff_not, Bool.not_eq_true, Bool.not_eq_false]
  constructor
  · intro unchanged
    have kept : (merge fields).apply document = (document, false) :=
      Document.applyEach_mergeField_of_false unchanged
    rw [kept]
    exact same_self _ proper
  · intro equal
    have ownMerge : (merge fields).Proper := own
    have properAfter := keepsProper_apply ownMerge document proper
    have places : Option.Rel (Reordered SameNumbers) (some (.object document))
        (some (.object ((merge fields).apply document).1)) :=
      rel_symm numberEquality_same (properAt_some.2 properAfter) (properAt_some.2 proper)
        ((sameOption_iff_rel (properAt_some.2 properAfter)).1 equal)
    have settled : ∀ field ∈ fields.entries, document.Settled field := by
      intro field member
      rcases settled_merge own field member with isId | same
      · exact .inl isId
      refine .inr ?_
      have after := (sameOption_iff_rel ((properAt_some.2 properAfter).get? field.1)).1 same
      have value := properAt_some.2 ((proper_object_iff.1 own).2 field member)
      exact (sameOption_iff_rel ((properAt_some.2 proper).get? field.1)).2
        (rel_trans numberEquality_same ((properAt_some.2 proper).get? field.1) value
          (rel_get? places field.1) after)
    exact congrArg Prod.snd (Document.applyEach_mergeField_of_settled settled)

end Update

end DocTable
