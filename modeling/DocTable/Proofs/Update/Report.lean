import Mathlib.Data.List.Pairwise
import DocTable.Proofs.FieldPath
import DocTable.Proofs.Update.Consistency
import DocTable.Proofs.Update.Merge
import DocTable.Proofs.Update.Rearrangement

/-!
# The report of a change

An update reports a change if one of its steps has changed the document, and later steps
may take that back. So a document that has become another one is always reported. The
converse holds for merges, and for operators exactly if no entry changes what another one
leaves. An update with such entries reports a change of every document, though there is
one that it leaves as it is.
-/

namespace DocTable.Update

open Json

/-- The update adds to no path twice. -/
def AddsOnce : Update → Prop
  | .merge _ => True
  | .operators _ increments _ => (increments.map (·.1.segments)).Nodup

theorem increment_ensures_text (entry : String × Json) :
    Ensures (fun part : FieldPath × Number => ".".intercalate part.1.segments = entry.1)
      (increment entry) := by
  rcases entry with ⟨field, operand⟩
  cases operand with
  | number amount =>
      constructor
      intro part read
      rcases exists_of_bind_eq_ok read with ⟨path, found, whole⟩
      rcases exists_of_bind_eq_ok found with ⟨parsed, parsing, checked⟩
      split at checked
      · cases checked
      · cases checked
        cases whole
        exact FieldPath.intercalate_segments parsing
  | _ => exact Ensures.throw _

theorem increments_nodup {entries : List (String × Json)} (distinct : (entries.map (·.1)).Nodup) :
    Ensures (fun increments => (increments.map (·.1.segments)).Nodup)
      (entries.mapM increment) := by
  constructor
  intro increments read
  have texts : entries.map (·.1) =
      (increments.map (·.1.segments)).map (".".intercalate ·) := by
    rw [List.map_map, ← List.forall₂_eq_eq_eq, List.forall₂_map_left_iff,
      List.forall₂_map_right_iff]
    exact (mapM_eq_ok_iff.1 read).imp fun entry part own =>
      ((increment_ensures_text entry).of_ok part own).symm
  rw [texts] at distinct
  exact distinct.of_map

/-- Only one operator contributes increments, and to no path twice. -/
theorem partOfEntry_addsOnce (key : String) {operand : Json} (own : operand.Proper) :
    Ensures (fun part => (part.increments.map (·.1.segments)).Nodup ∧
      (key ≠ "$inc" → part.increments = [])) (partOfEntry key operand) := by
  apply partOfEntry_ensures
  · exact fun _ _ _ _ => ⟨List.nodup_nil, fun _ => rfl⟩
  · rintro fields increments isInc rfl read
    have distinct := (increments_nodup (proper_object_iff.1 own).1).of_ok increments read
    exact ⟨distinct, fun other => absurd isInc other⟩
  · exact fun _ _ => ⟨List.nodup_nil, fun _ => rfl⟩

theorem partOfEntries_addsOnce {entries : List (String × Json)}
    (distinct : (entries.map (·.1)).Nodup) (each : ∀ entry ∈ entries, entry.2.Proper) :
    Ensures (fun part => (part.increments.map (·.1.segments)).Nodup ∧
      ("$inc" ∉ entries.map (·.1) → part.increments = [])) (partOfEntries entries) := by
  induction entries with
  | nil => exact Ensures.pure ⟨List.nodup_nil, fun _ => rfl⟩
  | cons entry rest ih =>
      rcases entry with ⟨key, operand⟩
      rcases List.nodup_cons.1 distinct with ⟨fresh, distinct⟩
      rcases List.forall_mem_cons.1 each with ⟨own, others⟩
      apply (partOfEntry_addsOnce key own).bind
      rintro first ⟨once, none⟩
      apply (ih distinct others).bind
      rintro second ⟨onceLater, noneLater⟩
      refine Ensures.pure ⟨?_, ?_⟩
      · by_cases isInc : key = "$inc"
        · have empty : second.increments = [] := noneLater (isInc ▸ fresh)
          simpa [Part.append, empty] using once
        · have empty : first.increments = [] := none isInc
          simpa [Part.append, empty] using onceLater
      · intro absent
        rw [List.map_cons, List.mem_cons, not_or] at absent
        have empty : first.increments = [] := none (Ne.symm absent.1)
        have emptyLater : second.increments = [] := noneLater absent.2
        simp [Part.append, empty, emptyLater]

theorem ofDocument_addsOnce {source : Document} (own : (Json.object source).Proper) :
    Ensures AddsOnce (ofDocument source) := by
  rcases proper_object_iff.1 own with ⟨distinct, each⟩
  unfold ofDocument
  split
  · split
    · exact Ensures.throw _
    · exact Ensures.pure trivial
  · split
    · apply (partOfEntries_addsOnce distinct each).bind
      rintro part ⟨once, -⟩
      exact Ensures.pure once
    · exact Ensures.throw _

variable {assignments : List (FieldPath × Json)} {increments : List (FieldPath × Number)}
variable {removals : List FieldPath}

theorem path_ne_nil_of_mem_edits {edit : Edit}
    (member : edit ∈ edits assignments increments removals) : edit.path ≠ [] := by
  simp only [edits, List.mem_append, List.mem_map] at member
  rcases member with (⟨part, -, rfl⟩ | ⟨part, -, rfl⟩) | ⟨path, -, rfl⟩
  · exact part.1.segments_ne_nil
  · exact part.1.segments_ne_nil
  · exact path.segments_ne_nil

theorem edits_precedes (once : (increments.map (·.1.segments)).Nodup) :
    (edits assignments increments removals).Pairwise Edit.Precedes := by
  have assign (part : FieldPath × Json) (later : Edit) :
      Edit.Precedes ⟨part.1.segments, .assign part.2⟩ later := by
    rintro ⟨amount, impossible⟩
    cases impossible
  have remove (path : FieldPath) (later : Edit) :
      Edit.Precedes ⟨path.segments, .remove⟩ later := by
    rintro ⟨amount, impossible⟩
    cases impossible
  have add (part : FieldPath × Number) (path : FieldPath) :
      Edit.Precedes ⟨part.1.segments, .add part.2⟩ ⟨path.segments, .remove⟩ := by
    refine fun _ => ⟨nofun, ?_⟩
    rintro ⟨amount, impossible⟩
    cases impossible
  have addOnce {part later : FieldPath × Number} (other : part.1.segments ≠ later.1.segments) :
      Edit.Precedes ⟨part.1.segments, .add part.2⟩ ⟨later.1.segments, .add later.2⟩ :=
    fun _ => ⟨nofun, fun _ => Ne.symm other⟩
  rw [edits, List.pairwise_append, List.pairwise_append]
  refine ⟨⟨?_, ?_, ?_⟩, ?_, ?_⟩
  · exact List.pairwise_map.2 (List.pairwise_of_forall fun part later => assign part _)
  · exact List.pairwise_map.2 ((List.pairwise_map.1 once).imp addOnce)
  · exact List.forall_mem_map.2 fun part _ later _ => assign part later
  · exact List.pairwise_map.2 (List.pairwise_of_forall fun path later => remove path _)
  · refine List.forall_mem_append.2 ⟨?_, ?_⟩
    · exact List.forall_mem_map.2 fun part _ later _ => assign part later
    · exact List.forall_mem_map.2 fun part _ => List.forall_mem_map.2 fun path _ => add part path

/-- No entry of the update changes what another one leaves at its path, or behind it. -/
def Consistent : Update → Prop
  | .merge _ => True
  | .operators assignments increments removals =>
      Edit.Consistent (edits assignments increments removals)

instance (update : Update) : Decidable update.Consistent :=
  match update with
  | .merge _ => inferInstanceAs (Decidable True)
  | .operators assignments increments removals =>
      inferInstanceAs (Decidable (Edit.Consistent (edits assignments increments removals)))

theorem consistent_of_apart (own : (Update.operators assignments increments removals).Proper)
    (independent : (paths assignments increments removals).Pairwise Apart) :
    (Update.operators assignments increments removals).Consistent := by
  have forward : (edits assignments increments removals).Pairwise Edit.Agrees :=
    (edits_apart independent).imp fun apart leads => absurd leads apart.1
  have backward : (edits assignments increments removals).Pairwise (flip Edit.Agrees) :=
    (edits_apart independent).imp fun apart leads => absurd leads apart.2
  have self : ∀ edit ∈ edits assignments increments removals, edit.Agrees edit :=
    fun edit member => Edit.agrees_self (properAll_edits own edit member)
  intro edit member other memberOther
  exact List.Pairwise.forall_of_forall_of_flip self forward backward member memberOther

/-- The flag tells whether the document has become another one. -/
def Reports (update : Update) (document : Document) : Prop :=
  (update.apply document).2 = true ↔
    same (.object (update.apply document).1) (.object document) = false

section Operators

variable {document : Document} (own : (Update.operators assignments increments removals).Proper)

include own

theorem same_apply_iff (proper : (Json.object document).Proper) :
    same (.object ((operators assignments increments removals).apply document).1)
        (.object document) = true ↔
      Option.Rel (Reordered SameNumbers)
        (Edit.run (edits assignments increments removals) (some (.object document)))
        (some (.object document)) := by
  rw [← (apply_operators assignments increments removals document).1,
    ← sameOption_iff_rel (properAt_some.2 (keepsProper_apply own document proper))]
  exact Iff.rfl

/-- A document that is not reported is the same, and so tells that the entries agree. -/
theorem same_and_consistent_of_silent (proper : (Json.object document).Proper)
    (silent : ((operators assignments increments removals).apply document).2 = false) :
    same (.object ((operators assignments increments removals).apply document).1)
        (.object document) = true ∧
      (operators assignments increments removals).Consistent := by
  rw [(apply_operators assignments increments removals document).2] at silent
  rcases Edit.rel_run_of_runChanges (properAll_edits own) (properAt_some.2 proper) silent with
    ⟨equal, each⟩
  exact ⟨(same_apply_iff own proper).2 equal,
    Edit.consistent_of_changes (properAll_edits own) (properAt_some.2 proper) each⟩

theorem exists_same_apply :
    ∃ document : Document, (Json.object document).Proper ∧
      same (.object ((operators assignments increments removals).apply document).1)
        (.object document) = true := by
  rcases Edit.exists_rel_run (properAll_edits own) with ⟨place, proper, stays, object⟩
  rcases object fun edit member root => absurd root (path_ne_nil_of_mem_edits member) with
    ⟨fields, rfl⟩
  have properFields := properAt_some.1 proper
  exact ⟨fields, properFields, (same_apply_iff own properFields).2 stays⟩

/-- A change by consistent entries remains. -/
theorem not_same_of_consistent (once : (operators assignments increments removals).AddsOnce)
    (consistent : (operators assignments increments removals).Consistent)
    (proper : (Json.object document).Proper)
    (changed : ((operators assignments increments removals).apply document).2 = true) :
    same (.object ((operators assignments increments removals).apply document).1)
      (.object document) = false := by
  rw [(apply_operators assignments increments removals document).2] at changed
  rw [← Bool.not_eq_true, same_apply_iff own proper]
  exact Edit.not_rel_run_of_runChanges (properAll_edits own) (properAt_some.2 proper) consistent
    (edits_precedes once) changed

end Operators

/-- A change is reported if there is one, but not only then. Let an update be read. A document
that it does not report has not become another one. It reports exactly the documents that have,
whatever they are, if and only if it is consistent; and if it is not, it reports them all. -/
theorem reports_iff_consistent {source : Document} {update : Update}
    (proper : (Json.object source).Proper) (read : ofDocument source = .ok update) :
    (∀ document : Document, (Json.object document).Proper → (update.apply document).2 = false →
        same (.object (update.apply document).1) (.object document) = true) ∧
      ((∀ document : Document, (Json.object document).Proper → update.Reports document) ↔
        update.Consistent) ∧
      (¬update.Consistent → ∀ document : Document, (Json.object document).Proper →
        (update.apply document).2 = true) := by
  have own := (ofDocument_ensures_proper proper).of_ok update read
  have once := (ofDocument_addsOnce proper).of_ok update read
  cases update with
  | merge fields =>
      have reports (document : Document) (properDocument : (Json.object document).Proper) :
          (merge fields).Reports document := merge_changes_iff own properDocument
      refine ⟨?_, ⟨fun _ => trivial, fun _ => reports⟩, ?_⟩
      · intro document properDocument silent
        rw [← Bool.not_eq_false]
        intro different
        exact Bool.false_ne_true (silent.symm.trans ((reports document properDocument).2 different))
      · exact fun inconsistent => absurd trivial inconsistent
  | operators assignments increments removals =>
      have silent {document : Document} (properDocument : (Json.object document).Proper) :=
        same_and_consistent_of_silent own properDocument
      refine ⟨fun document properDocument unreported => (silent properDocument unreported).1,
        ⟨?_, ?_⟩, ?_⟩
      · intro reports
        rcases exists_same_apply own with ⟨document, properDocument, equal⟩
        refine (silent properDocument ?_).2
        rw [← Bool.not_eq_true]
        intro changed
        exact Bool.false_ne_true (((reports document properDocument).1 changed).symm.trans equal)
      · intro consistent document properDocument
        refine ⟨not_same_of_consistent own once consistent properDocument, ?_⟩
        intro different
        by_contra unreported
        rw [(silent properDocument (Bool.not_eq_true _ ▸ unreported)).1] at different
        cases different
      · intro inconsistent document properDocument
        by_contra unreported
        exact inconsistent (silent properDocument (Bool.not_eq_true _ ▸ unreported)).2

/-- Entries on overlapping paths that agree, and two of which the second one takes back what
the first one has done. -/
theorem reports_iff_consistent_of_overlapping :
    (∃ update,
      ofDocument ⟨[("$set", .object ⟨[("a", .object ⟨[("b", .null)]⟩), ("a.b", .null)]⟩),
        ("$unset", .array [.string "a.c", .string "x"])]⟩ = .ok update ∧
        ∀ document : Document, (Json.object document).Proper → update.Reports document) ∧
      ∃ update,
        ofDocument ⟨[("$set", .object ⟨[("a", .null)]⟩), ("$unset", .array [.string "a"])]⟩ =
          .ok update ∧
        ∀ document : Document, (Json.object document).Proper →
          (update.apply document).2 = true := by
  have proper : (Json.object
      ⟨[("$set", .object ⟨[("a", .object ⟨[("b", .null)]⟩), ("a.b", .null)]⟩),
        ("$unset", .array [.string "a.c", .string "x"])]⟩).Proper := by
    simp [Json.Proper, ProperEntries, ProperElements, Fields.Distinct, Fields.keys]
  have properUndone : (Json.object
      ⟨[("$set", .object ⟨[("a", .null)]⟩), ("$unset", .array [.string "a"])]⟩).Proper := by
    simp [Json.Proper, ProperEntries, ProperElements, Fields.Distinct, Fields.keys]
  refine ⟨⟨_, rfl, (reports_iff_consistent proper rfl).2.1.2 ?_⟩, _, rfl,
    (reports_iff_consistent properUndone rfl).2.2 ?_⟩
  · decide
  · decide

/-- A field that is set and removed again is reported as a change of the empty document. -/
theorem change_reported_of_same :
    ∃ update,
      ofDocument ⟨[("$set", .object ⟨[("a", .number (.integer 1 (by decide)))]⟩),
        ("$unset", .array [.string "a"])]⟩ = .ok update ∧
        (update.apply ⟨[]⟩).2 = true ∧
          same (.object (update.apply ⟨[]⟩).1) (.object ⟨[]⟩) = true :=
  ⟨_, rfl, rfl, rfl⟩

end DocTable.Update
