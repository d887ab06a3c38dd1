import Mathlib.Data.List.Perm.Subperm
import DocTable.Proofs.Update.Merge
import DocTable.Proofs.Update.Nested

/-!
# Assigning and removing twice

A run of edits that first assign and then remove does the same the second time. Under
each name this is a matter of the edits below it, until an edit at the place itself
forgets what stood there. The names keep their order: assigning puts new ones behind
the old ones, and removing takes out no others than those, since nothing that has been
removed is still there after the first run.
-/

namespace DocTable

/-- Parts of a list without repetition that have the same elements are the same. -/
theorem eq_of_sublist {whole left right : List String} (distinct : whole.Nodup)
    (first : left.Sublist whole) (second : right.Sublist whole)
    (same : ∀ element, element ∈ left ↔ element ∈ right) : left = right := by
  have chosen {part : List String} (inside : part.Sublist whole) :
      part = whole.filter (· ∈ part) := by
    have own : part.filter (· ∈ part) = part :=
      List.filter_eq_self.2 fun element member => decide_eq_true member
    have kept := inside.filter (· ∈ part)
    rw [own] at kept
    have fewer : (whole.filter (· ∈ part)).Subperm part :=
      List.Nodup.subperm (distinct.filter _) fun element member =>
        of_decide_eq_true (List.mem_filter.1 member).2
    exact kept.eq_of_length_le fewer.length_le
  rw [chosen first, chosen second]
  exact List.filter_congr fun element _ => by simp [same]

namespace Edit

open Json

/-- Every edit assigns. -/
def AllAssign (edits : List Edit) : Prop := ∀ edit ∈ edits, ∃ value, edit.action = .assign value

/-- Every edit removes. -/
def AllRemove (edits : List Edit) : Prop := ∀ edit ∈ edits, edit.action = .remove

variable {edit : Edit} {edits assigns removes : List Edit} {name : String}
variable {place : Option Json} {fields after : Fields Json}

/-- An edit that assigns behind a name puts a value under that name. -/
theorem exists_apply_assign (key : String) (rest : List String) (value : Json)
    (place : Option Json) :
    ∃ inner, apply ⟨key :: rest, .assign value⟩ place =
      some (.object ((fieldsAt place).insert key inner)) := by
  have written := alter_eq_write value rest ((fieldsAt place).get? key)
  exact ⟨_, congrArg (putField place key) written⟩

theorem apply_eq_apply_fieldsAt {value : Json} (assigns : edit.action = .assign value)
    (nonempty : edit.path ≠ []) (place : Option Json) :
    edit.apply place = edit.apply (some (.object (fieldsAt place))) := by
  rcases edit with ⟨path, action⟩
  cases assigns
  cases path with
  | nil => contradiction
  | cons key rest =>
      have written := alter_eq_write value rest ((fieldsAt place).get? key)
      exact (congrArg (putField place key) written).trans
        (congrArg (putField (some (.object (fieldsAt place))) key) written).symm

theorem sublist_keys_of_assign {value : Json} (assigns : edit.action = .assign value)
    (nonempty : edit.path ≠ [])
    (applied : edit.apply (some (.object fields)) = some (.object after)) :
    fields.keys.Sublist after.keys := by
  rcases edit with ⟨path, action⟩
  cases assigns
  cases path with
  | nil => contradiction
  | cons key rest =>
      rcases exists_apply_assign key rest value (some (.object fields)) with ⟨inner, put⟩
      rw [applied] at put
      cases put
      rw [fieldsAt_object, Fields.keys_insert]
      split
      · exact .refl _
      · exact List.sublist_append_left _ _

theorem sublist_keys_of_remove (removes : edit.action = .remove) (nonempty : edit.path ≠ [])
    (applied : edit.apply (some (.object fields)) = some (.object after)) :
    after.keys.Sublist fields.keys := by
  rcases edit with ⟨path, action⟩
  cases removes
  cases path with
  | nil => contradiction
  | cons key rest =>
      simp only [apply, alter, fieldsAt_object] at applied
      cases inner : alter (Action.result .remove) rest (fields.get? key) with
      | none =>
          rw [inner, putField_object_none] at applied
          cases applied
          exact List.filter_sublist.map _
      | some value =>
          rw [inner, putField_some, fieldsAt_object] at applied
          cases applied
          have present : key ∈ fields.keys := by
            by_contra absent
            rw [Fields.get?_eq_none_iff.2 absent, alter_of_eq (by rfl)] at inner
            cases inner
          rw [Fields.keys_insert, if_pos present]

/-- The names of an object before and after edits that assign, and that remove. -/
theorem sublist_keys_of_allAssign (assigned : AllAssign edits)
    (nonempty : ∀ edit ∈ edits, edit.path ≠ [])
    (ran : run edits (some (.object fields)) = some (.object after)) :
    fields.keys.Sublist after.keys := by
  induction edits generalizing fields with
  | nil =>
      cases ran
      exact .refl _
  | cons edit rest ih =>
      rcases List.forall_mem_cons.1 nonempty with ⟨own, later⟩
      rcases List.forall_mem_cons.1 assigned with ⟨⟨value, action⟩, assigned⟩
      rcases exists_apply_object (fun root => absurd root own) fields with ⟨next, applied, -⟩
      rw [run_cons, applied] at ran
      exact (sublist_keys_of_assign action own applied).trans (ih assigned later ran)

theorem sublist_keys_of_allRemove (removed : AllRemove edits)
    (nonempty : ∀ edit ∈ edits, edit.path ≠ [])
    (ran : run edits (some (.object fields)) = some (.object after)) :
    after.keys.Sublist fields.keys := by
  induction edits generalizing fields with
  | nil =>
      cases ran
      exact .refl _
  | cons edit rest ih =>
      rcases List.forall_mem_cons.1 nonempty with ⟨own, later⟩
      rcases List.forall_mem_cons.1 removed with ⟨action, removed⟩
      rcases exists_apply_object (fun root => absurd root own) fields with ⟨next, applied, -⟩
      rw [run_cons, applied] at ran
      exact (ih removed later ran).trans (sublist_keys_of_remove action own applied)

theorem run_of_not_object (removed : AllRemove edits) (nonempty : ∀ edit ∈ edits, edit.path ≠ [])
    (scalar : ∀ fields, place ≠ some (.object fields)) : run edits place = place := by
  induction edits with
  | nil => rfl
  | cons edit rest ih =>
      rcases List.forall_mem_cons.1 nonempty with ⟨own, later⟩
      rcases List.forall_mem_cons.1 removed with ⟨action, removed⟩
      have nothing : follow? place edit.path = none := by
        cases found : follow? place edit.path with
        | none => rfl
        | some value =>
            rcases exists_object_of_follow? own found with ⟨fields, object⟩
            exact absurd object (scalar fields)
      have kept : edit.apply place = place := by
        rw [apply, action]
        exact alter_of_eq nothing.symm
      rw [run_cons, kept, ih removed later]

/-- An object is the same after the second run if this is so under each name. -/
theorem run_run_object (assigned : AllAssign assigns) (removed : AllRemove removes)
    (nonempty : ∀ edit ∈ assigns ++ removes, edit.path ≠ [])
    (own : ProperAll (assigns ++ removes)) (proper : (Json.object fields).Proper)
    (each : ∀ name, run (below name (assigns ++ removes))
        (run (below name (assigns ++ removes)) (fields.get? name)) =
      run (below name (assigns ++ removes)) (fields.get? name)) :
    run (assigns ++ removes) (run (assigns ++ removes) (some (.object fields))) =
      run (assigns ++ removes) (some (.object fields)) := by
  have adds : ∀ edit ∈ assigns ++ removes, edit.path = [] → edit.Adds :=
    fun edit member root => absurd root (nonempty edit member)
  rcases List.forall_mem_append.1 nonempty with ⟨nonemptyAssigns, nonemptyRemoves⟩
  rcases exists_run_object adds fields with ⟨once, ranOnce, valuesOnce⟩
  rcases exists_run_object adds once with ⟨twice, ranTwice, valuesTwice⟩
  rw [ranOnce, ranTwice]
  have values (name : String) : twice.get? name = once.get? name := by
    rw [valuesTwice, valuesOnce, each]
  have properOnce := properAt_run own (properAt_some.2 proper)
  rw [ranOnce, properAt_some] at properOnce
  have properTwice := properAt_run own (properAt_some.2 properOnce)
  rw [ranTwice, properAt_some] at properTwice
  -- Between the two phases of the second run stands an object with all names of both results.
  rcases exists_run_object (fun edit member root => absurd root (nonemptyAssigns edit member)) once
    with ⟨between, ranBetween, -⟩
  have properBetween := properAt_run (fun edit member => own edit (List.mem_append_left _ member))
    (properAt_some.2 properOnce)
  rw [ranBetween, properAt_some] at properBetween
  rw [run_append, ranBetween] at ranTwice
  have keys : twice.keys = once.keys := by
    apply eq_of_sublist (proper_object_iff.1 properBetween).1
      (sublist_keys_of_allRemove removed nonemptyRemoves ranTwice)
      (sublist_keys_of_allAssign assigned nonemptyAssigns ranBetween)
    intro name
    rw [← not_iff_not, ← Fields.get?_eq_none_iff, ← Fields.get?_eq_none_iff, values]
  rw [Fields.eq_of_get? (proper_object_iff.1 properTwice).1 (proper_object_iff.1 properOnce).1 keys
    values]

theorem run_run (assigned : AllAssign assigns) (removed : AllRemove removes)
    (own : ProperAll (assigns ++ removes)) (proper : ProperAt place) :
    run (assigns ++ removes) (run (assigns ++ removes) place) = run (assigns ++ removes) place := by
  generalize whole : assigns ++ removes = edits at own ⊢
  induction edits using induction_below generalizing assigns removes place with
  | nil => rfl
  | step edits ih =>
      subst whole
      by_cases root : ∃ edit ∈ assigns ++ removes, edit.path = []
      · rcases root with ⟨edit, member, here⟩
        have forgets : ¬edit.Adds := by
          rintro ⟨amount, adds⟩
          rcases List.mem_append.1 member with member | member
          · rcases assigned edit member with ⟨value, action⟩
            cases adds.symm.trans action
          · cases adds.symm.trans (removed edit member)
        exact run_eq_run member here forgets _ _
      · have nonempty : ∀ edit ∈ assigns ++ removes, edit.path ≠ [] :=
          fun edit member here => root ⟨edit, member, here⟩
        have object {fields : Fields Json} (proper : (Json.object fields).Proper) :
            run (assigns ++ removes) (run (assigns ++ removes) (some (.object fields))) =
              run (assigns ++ removes) (some (.object fields)) := by
          apply run_run_object assigned removed nonempty own proper
          intro name
          refine ih name ?_ ?_ (fun _ found => proper.get? found)
            (below_append name assigns removes).symm ?_
          · intro edit member
            rcases exists_of_mem_below member with ⟨above, inside, -, action⟩
            exact action ▸ assigned above inside
          · intro edit member
            rcases exists_of_mem_below member with ⟨above, inside, -, action⟩
            exact action ▸ removed above inside
          · exact properAll_below own name
        -- What is no object becomes one with the first assignment, or nothing is done.
        cases assigns with
        | cons edit rest =>
            rcases assigned edit List.mem_cons_self with ⟨value, action⟩
            have begun : run (edit :: rest ++ removes) place =
                run (edit :: rest ++ removes) (some (.object (fieldsAt place))) := by
              rw [List.cons_append, run_cons, run_cons,
                apply_eq_apply_fieldsAt action (nonempty edit List.mem_cons_self)]
            rw [begun, object proper.fieldsAt]
        | nil =>
            by_cases isObject : ∃ fields, place = some (.object fields)
            · rcases isObject with ⟨fields, rfl⟩
              exact object (properAt_some.1 proper)
            · have kept : run ([] ++ removes) place = place :=
                run_of_not_object removed nonempty fun fields same => isObject ⟨fields, same⟩
              rw [kept, kept]

end Edit

namespace Update

open Json

/-- The update adds to no number. -/
def AddsNothing : Update → Prop
  | .merge _ => True
  | .operators _ increments _ => increments = []

/-- What an update that adds nothing has left of a document is left by it as it is. -/
theorem apply_apply_of_addsNothing {update : Update} (own : update.Proper)
    (adds : update.AddsNothing) {document : Document}
    (properDocument : (Json.object document).Proper) :
    (update.apply (update.apply document).1).1 = (update.apply document).1 := by
  cases update with
  | merge fields => rw [merge_apply_merge own]
  | operators assignments increments removals =>
      cases adds
      have properEdits := properAll_edits own
      rw [edits, List.map_nil, List.append_nil] at properEdits
      have assigned : Edit.AllAssign
          (assignments.map fun part => ⟨part.1.segments, .assign part.2⟩) :=
        List.forall_mem_map.2 fun part _ => ⟨part.2, rfl⟩
      have removed : Edit.AllRemove (removals.map fun path => ⟨path.segments, .remove⟩) :=
        List.forall_mem_map.2 fun path _ => rfl
      have twice := Edit.run_run assigned removed properEdits (properAt_some.2 properDocument)
      have applied (document : Document) :=
        (apply_operators assignments [] removals document).1
      simp only [edits, List.map_nil, List.append_nil] at applied
      rw [← applied, ← applied] at twice
      exact Json.object.inj (Option.some.inj twice)

/-- Updates that add nothing are idempotent. Let an update be read, and let it be a merge or
have no increments. Applied to its own result it leaves that as it is, in every respect, and
a merge also reports no change. -/
theorem apply_idempotent {source : Document} {update : Update}
    (proper : (Json.object source).Proper) (read : ofDocument source = .ok update)
    (adds : update.AddsNothing) {document : Document}
    (properDocument : (Json.object document).Proper) :
    (update.apply (update.apply document).1).1 = (update.apply document).1 ∧
      ((∃ fields, update = .merge fields) →
        (update.apply (update.apply document).1).2 = false) := by
  have own := (ofDocument_ensures_proper proper).of_ok update read
  refine ⟨apply_apply_of_addsNothing own adds properDocument, ?_⟩
  rintro ⟨fields, rfl⟩
  rw [merge_apply_merge own]

/-- An update writes into scalars and removes again what it has written; a merge comes upon its
own value. -/
theorem apply_idempotent_of_overlapping :
    (∃ update,
      ofDocument ⟨[("$unset", .array [.string "a.b.c"]),
        ("$set", .object ⟨[("a.b.c", .null), ("x.y", .bool true), ("a.b.d", .null)]⟩)]⟩ =
          .ok update ∧
        (update.apply (update.apply ⟨[("x", .null), ("a", .string "text")]⟩).1).1 =
          (update.apply ⟨[("x", .null), ("a", .string "text")]⟩).1) ∧
      ∃ update, ofDocument ⟨[("x", .bool true)]⟩ = .ok update ∧
        (update.apply (update.apply ⟨[("x", .null)]⟩).1).2 = false := by
  have proper : (Json.object ⟨[("$unset", .array [.string "a.b.c"]),
      ("$set", .object ⟨[("a.b.c", .null), ("x.y", .bool true), ("a.b.d", .null)]⟩)]⟩).Proper := by
    simp [Json.Proper, ProperEntries, ProperElements, Fields.Distinct, Fields.keys]
  have properDocument : (Json.object ⟨[("x", .null), ("a", .string "text")]⟩).Proper := by
    simp [Json.Proper, ProperEntries, Fields.Distinct, Fields.keys]
  have properMerge : (Json.object ⟨[("x", .bool true)]⟩).Proper := by
    simp [Json.Proper, ProperEntries, Fields.Distinct, Fields.keys]
  have properScalar : (Json.object ⟨[("x", .null)]⟩).Proper := by
    simp [Json.Proper, ProperEntries, Fields.Distinct, Fields.keys]
  refine ⟨⟨_, rfl, (apply_idempotent proper rfl rfl properDocument).1⟩, _, rfl, ?_⟩
  exact (apply_idempotent properMerge rfl trivial properScalar).2 ⟨_, rfl⟩

end Update

end DocTable
