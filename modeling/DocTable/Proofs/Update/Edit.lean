import DocTable.Proofs.Document.Proper
import DocTable.Proofs.Json.Number
import DocTable.Proofs.Json.Place

/-!
# Updates as lists of edits

The entries of an update are edits: an action at the end of a path. Applying the
update runs its edits one after the other, and its flag tells whether one of them
changes the document that it is applied to. An edit that changes nothing leaves an
equal document, and equal documents are edited alike.
-/

namespace DocTable

open Json

/-- What an entry of an update does at the end of its path. -/
inductive Action where
  | assign (value : Json)
  | add (amount : Number)
  | remove

namespace Action

/-- What the action leaves of what stood there. -/
def result : Action → Option Json → Option Json
  | .assign value, _ => some value
  | .add amount, current => (incremented? current amount).or current
  | .remove, _ => none

/-- Whether the action leaves anything else than what stood there. -/
def changes : Action → Option Json → Bool
  | .assign value, current => !sameOption current (some value)
  | .add amount, current =>
      (incremented? current amount).any fun value => !sameOption current (some value)
  | .remove, current => current.isSome

end Action

/-- An action at the end of a path. -/
structure Edit where
  path : List String
  action : Action

namespace Edit

/-- The place after the edit. -/
def apply (edit : Edit) (place : Option Json) : Option Json :=
  alter edit.action.result edit.path place

/-- Whether the edit changes what stands at the end of its path. -/
def changes (edit : Edit) (place : Option Json) : Bool :=
  edit.action.changes (follow? place edit.path)

/-- The place after all edits, one after the other. -/
def run (edits : List Edit) (place : Option Json) : Option Json :=
  edits.foldl (fun place edit => edit.apply place) place

/-- Whether one of the edits changes the place that it is applied to. -/
def runChanges : List Edit → Option Json → Bool
  | [], _ => false
  | edit :: rest, place => edit.changes place || runChanges rest (edit.apply place)

variable {edit : Edit} {edits rest : List Edit} {place other : Option Json}

@[simp] theorem run_nil (place : Option Json) : run [] place = place := rfl

@[simp] theorem run_cons (edit : Edit) (rest : List Edit) (place : Option Json) :
    run (edit :: rest) place = run rest (edit.apply place) := rfl

theorem run_append (edits rest : List Edit) (place : Option Json) :
    run (edits ++ rest) place = run rest (run edits place) := List.foldl_append

theorem runChanges_append (edits rest : List Edit) (place : Option Json) :
    runChanges (edits ++ rest) place =
      (runChanges edits place || runChanges rest (run edits place)) := by
  induction edits generalizing place with
  | nil => rfl
  | cons edit edits ih => rw [List.cons_append, runChanges, runChanges, run_cons, ih, Bool.or_assoc]

end Edit

namespace Update

/-- The edits of an update by operators, in the order in which they are made. -/
def edits (assignments : List (FieldPath × Json)) (increments : List (FieldPath × Number))
    (removals : List FieldPath) : List Edit :=
  assignments.map (fun part => ⟨part.1.segments, .assign part.2⟩) ++
    increments.map (fun part => ⟨part.1.segments, .add part.2⟩) ++
      removals.map fun path => ⟨path.segments, .remove⟩

/-- A change of documents that is an edit, flag and all. -/
def Performs (change : Document → Document × Bool) (edit : Edit) : Prop :=
  ∀ document : Document,
    some (.object (change document).1) = edit.apply (some (.object document)) ∧
      (change document).2 = edit.changes (some (.object document))

theorem performs_set (path : FieldPath) (value : Json) :
    Performs (·.set path value) ⟨path.segments, .assign value⟩ := by
  intro document
  refine ⟨?_, rfl⟩
  have written := alter_eq_write value path.segments (some (.object document))
  rcases path with ⟨segments, nonempty, quotable⟩
  cases segments with
  | nil => contradiction
  | cons key rest => exact written.symm

theorem performs_unset (path : FieldPath) :
    Performs (·.unset path) ⟨path.segments, .remove⟩ := by
  intro document
  refine ⟨?_, rfl⟩
  rcases path with ⟨segments, nonempty, quotable⟩
  cases segments with
  | nil => contradiction
  | cons key rest =>
      have erased := alter_eq_erase key rest (.object document)
      rcases exists_object_putField (.inl ⟨document, rfl⟩) with ⟨fields, object⟩
      rw [alter, object, Option.some.injEq] at erased
      simp only [Document.unset, Document.remove, ← erased]
      exact object.symm

theorem performs_incrementAt (part : FieldPath × Number) :
    Performs (·.incrementAt part) ⟨part.1.segments, .add part.2⟩ := by
  intro document
  have lookup : follow? (some (.object document)) part.1.segments = document.lookup? part.1 := rfl
  simp only [Document.incrementAt, Edit.changes, Action.changes, lookup]
  cases found : incremented? (document.lookup? part.1) part.2 with
  | some value =>
      rcases performs_set part.1 value document with ⟨written, changed⟩
      have agree : Action.result (.add part.2) (document.lookup? part.1) = some value := by
        rw [Action.result, found, Option.some_or]
      exact ⟨written.trans (alter_congr agree.symm), changed⟩
  | none =>
      have kept : Action.result (.add part.2) (document.lookup? part.1) =
          document.lookup? part.1 := by
        rw [Action.result, found, Option.none_or]
      exact ⟨(alter_of_eq kept).symm, rfl⟩

/-- Parts that are edits are applied as the run of the edits. -/
theorem applyEach_eq_run {α : Type} {change : Document → α → Document × Bool} {edit : α → Edit}
    (performs : ∀ part, Performs (change · part) (edit part)) (document : Document)
    (parts : List α) :
    some (.object (applyEach change document parts).1) =
        Edit.run (parts.map edit) (some (.object document)) ∧
      (applyEach change document parts).2 =
        Edit.runChanges (parts.map edit) (some (.object document)) := by
  induction parts generalizing document with
  | nil => exact ⟨rfl, rfl⟩
  | cons part rest ih =>
      rcases performs part document with ⟨next, changed⟩
      rcases ih (change document part).1 with ⟨last, more⟩
      rw [List.map_cons, Edit.run_cons, Edit.runChanges, ← next, ← changed]
      exact ⟨last, congrArg ((change document part).2 || ·) more⟩

/-- Applying an update by operators is the run of its edits. -/
theorem apply_operators (assignments : List (FieldPath × Json))
    (increments : List (FieldPath × Number)) (removals : List FieldPath) (document : Document) :
    some (.object ((Update.operators assignments increments removals).apply document).1) =
        Edit.run (edits assignments increments removals) (some (.object document)) ∧
      ((Update.operators assignments increments removals).apply document).2 =
        Edit.runChanges (edits assignments increments removals) (some (.object document)) := by
  let assigned := applyEach (fun document part => document.set part.1 part.2) document assignments
  let added := applyEach Document.incrementAt assigned.1 increments
  rcases applyEach_eq_run (fun part => performs_set part.1 part.2) document assignments with
    ⟨afterSet, set⟩
  rcases applyEach_eq_run performs_incrementAt assigned.1 increments with ⟨afterAdd, add⟩
  rcases applyEach_eq_run performs_unset added.1 removals with ⟨afterRemove, remove⟩
  rw [edits, Edit.run_append, Edit.run_append, Edit.runChanges_append, Edit.runChanges_append,
    Edit.run_append, ← afterSet, ← afterAdd, ← afterRemove, ← set, ← add, ← remove]
  exact ⟨rfl, rfl⟩

end Update

/-! ## Equal places -/

/-- An equality of numbers: an equivalence that is no coarser than equality of values
and that sums respect. -/
structure NumberEquality (alike : Number → Number → Prop) : Prop where
  refl (number : Number) : alike number number
  symm (first second : Number) : alike first second → alike second first
  trans (first second third : Number) : alike first second → alike second third →
    alike first third
  same (first second : Number) : alike first second → SameNumbers first second
  add (first second : Number) : alike first second → ∀ amount : Number,
    Option.Rel alike (first.add? amount) (second.add? amount)

theorem numberEquality_eq : NumberEquality Eq where
  refl _ := rfl
  symm _ _ := Eq.symm
  trans _ _ _ := Eq.trans
  same first _ equal := equal ▸ first.same_self
  add first second equal amount := by
    subst equal
    cases first.add? amount with
    | none => exact .none
    | some sum => exact .some rfl

theorem numberEquality_same : NumberEquality SameNumbers where
  refl := Number.same_self
  symm _ _ := Number.same_symm
  trans _ _ _ := Number.same_trans
  same _ _ := id
  add _ _ := Number.add?_of_same

section Equal

variable {alike : Number → Number → Prop} (equality : NumberEquality alike)
variable {current place other third : Option Json}

include equality

theorem rel_symm (proper : ProperAt place) (properOther : ProperAt other)
    (places : Option.Rel (Reordered alike) place other) :
    Option.Rel (Reordered alike) other place := by
  rcases rel_cases places with ⟨rfl, rfl⟩ | ⟨left, right, rfl, rfl, related⟩
  · exact .none
  · exact .some (related.symm equality.symm (proper _ rfl) (properOther _ rfl))

theorem rel_trans (proper : ProperAt place) (properThird : ProperAt third)
    (first : Option.Rel (Reordered alike) place other)
    (second : Option.Rel (Reordered alike) other third) :
    Option.Rel (Reordered alike) place third := by
  rcases rel_cases first with ⟨rfl, rfl⟩ | ⟨left, middle, rfl, rfl, related⟩
  · exact second
  · rcases rel_cases second with ⟨impossible, -⟩ | ⟨_, right, same, rfl, next⟩
    · cases impossible
    · cases same
      exact .some (related.trans equality.trans (proper _ rfl) (properThird _ rfl) next)

theorem rel_same (places : Option.Rel (Reordered alike) place other) :
    Option.Rel (Reordered SameNumbers) place other := by
  rcases rel_cases places with ⟨rfl, rfl⟩ | ⟨left, right, rfl, rfl, related⟩
  · exact .none
  · exact .some (related.mono equality.same)

theorem rel_incremented? (places : Option.Rel (Reordered alike) place other) (amount : Number) :
    Option.Rel (Reordered alike) (incremented? place amount) (incremented? other amount) := by
  rcases rel_cases places with ⟨rfl, rfl⟩ | ⟨left, right, rfl, rfl, related⟩
  · exact .some (equality.refl amount)
  · have shape := related.shape
    cases left with
    | null | bool _ | string _ =>
        cases shape
        exact .none
    | array _ | object _ =>
        rcases shape with ⟨_, rfl, -⟩
        exact .none
    | number value =>
        rcases shape with ⟨counterpart, rfl, alike⟩
        rcases rel_cases (equality.add value counterpart alike amount) with
          ⟨none, noneOther⟩ | ⟨sum, otherSum, own, ownOther, sums⟩
        · rw [incremented?, incremented?, none, noneOther]
          exact .some trivial
        · rw [incremented?, incremented?, own, ownOther]
          exact .some sums

end Equal

namespace Action

/-- No object in an assigned value repeats a name. -/
def Proper : Action → Prop
  | .assign value => value.Proper
  | .add _ | .remove => True

variable {action : Action} {current other : Option Json}

theorem incremented?_cases {amount : Number} {value : Json}
    (found : incremented? current amount = some value) :
    (∃ number, value = .number number) ∨ value = .null := by
  match current with
  | none =>
      cases found
      exact .inl ⟨amount, rfl⟩
  | some (.number own) =>
      rw [incremented?] at found
      cases sum : own.add? amount with
      | none =>
          rw [sum] at found
          cases found
          exact .inr rfl
      | some total =>
          rw [sum] at found
          cases found
          exact .inl ⟨total, rfl⟩
  | some .null | some (.bool _) | some (.string _) | some (.array _) | some (.object _) =>
      cases found

theorem properAt_incremented? (current : Option Json) (amount : Number) :
    ProperAt (incremented? current amount) := by
  intro value found
  rcases incremented?_cases found with ⟨number, rfl⟩ | rfl <;> trivial

theorem properAt_result (own : action.Proper) (proper : ProperAt current) :
    ProperAt (action.result current) := by
  cases action with
  | assign value => exact properAt_some.2 own
  | add amount =>
      cases found : incremented? current amount with
      | none =>
          rw [result, found]
          exact proper
      | some value =>
          rw [result, found, Option.some_or, ← found]
          exact properAt_incremented? current amount
  | remove => exact properAt_none

variable {alike : Number → Number → Prop} (equality : NumberEquality alike)

include equality

theorem rel_result (action : Action) (places : Option.Rel (Reordered alike) current other) :
    Option.Rel (Reordered alike) (action.result current) (action.result other) := by
  cases action with
  | assign value => exact rel_refl equality.refl (some value)
  | add amount =>
      rw [result, result]
      rcases rel_cases (rel_incremented? equality places amount) with
        ⟨none, noneOther⟩ | ⟨value, counterpart, own, ownOther, related⟩
      · rw [none, noneOther]
        exact places
      · rw [own, ownOther]
        exact .some related
  | remove => exact .none

theorem changes_eq (own : action.Proper) (proper : ProperAt current) (properOther : ProperAt other)
    (places : Option.Rel (Reordered alike) current other) :
    action.changes current = action.changes other := by
  have comparison {first second : Option Json} (properFirst : ProperAt first)
      (properSecond : ProperAt second) (values : Option.Rel (Reordered alike) first second) :
      sameOption current first = sameOption other second := by
    have places := rel_same equality places
    have values := rel_same equality values
    have back := rel_symm numberEquality_same proper properOther places
    have valuesBack := rel_symm numberEquality_same properFirst properSecond values
    rw [Bool.eq_iff_iff, sameOption_iff_rel proper, sameOption_iff_rel properOther]
    constructor
    · intro same
      exact rel_trans numberEquality_same properOther properSecond back
        (rel_trans numberEquality_same proper properSecond same values)
    · intro same
      exact rel_trans numberEquality_same proper properFirst places
        (rel_trans numberEquality_same properOther properFirst same valuesBack)
  cases action with
  | assign value =>
      rw [changes, changes, comparison (properAt_some.2 own) (properAt_some.2 own)
        (rel_refl equality.refl _)]
  | add amount =>
      rw [changes, changes]
      rcases rel_cases (rel_incremented? equality places amount) with
        ⟨none, noneOther⟩ | ⟨value, counterpart, found, foundOther, related⟩
      · rw [none, noneOther]
        rfl
      · have sum := properAt_incremented? current amount
        have sumOther := properAt_incremented? other amount
        rw [found] at sum ⊢
        rw [foundOther] at sumOther ⊢
        rw [Option.any_some, Option.any_some, comparison sum sumOther (.some related)]
  | remove =>
      rcases rel_cases places with ⟨rfl, rfl⟩ | ⟨_, _, rfl, rfl, -⟩ <;> rfl

omit equality

/-- An action changes nothing if and only if it leaves an equal value. -/
theorem changes_eq_false_iff (own : action.Proper) (proper : ProperAt current) :
    action.changes current = false ↔
      Option.Rel (Reordered SameNumbers) (action.result current) current := by
  have comparison {value : Json} (properValue : ProperAt (some value)) :
      (!sameOption current (some value)) = false ↔
        Option.Rel (Reordered SameNumbers) (some value) current := by
    rw [Bool.not_eq_false', sameOption_iff_rel proper]
    exact ⟨rel_symm numberEquality_same proper properValue,
      rel_symm numberEquality_same properValue proper⟩
  cases action with
  | assign value => exact comparison (properAt_some.2 own)
  | add amount =>
      rw [changes, result]
      cases found : incremented? current amount with
      | none => exact ⟨fun _ => rel_refl numberEquality_same.refl current, fun _ => rfl⟩
      | some value => exact comparison (found ▸ properAt_incremented? current amount)
  | remove =>
      cases current with
      | none => exact ⟨fun _ => .none, fun _ => rfl⟩
      | some value => exact ⟨nofun, nofun⟩

end Action

namespace Edit

/-- No object in a value that the edits assign repeats a name. -/
def ProperAll (edits : List Edit) : Prop := ∀ edit ∈ edits, edit.action.Proper

variable {edit : Edit} {edits rest : List Edit} {place other : Option Json}

theorem properAt_apply (own : edit.action.Proper) (proper : ProperAt place) :
    ProperAt (edit.apply place) :=
  proper.alter edit.path (edit.action.properAt_result own (proper.follow? edit.path))

theorem properAt_run (own : ProperAll edits) (proper : ProperAt place) :
    ProperAt (run edits place) := by
  induction edits generalizing place with
  | nil => exact proper
  | cons edit rest ih =>
      rcases List.forall_mem_cons.1 own with ⟨first, later⟩
      exact ih later (properAt_apply first proper)

theorem rel_apply_of_changes (own : edit.action.Proper) (proper : ProperAt place)
    (unchanged : edit.changes place = false) :
    Option.Rel (Reordered SameNumbers) (edit.apply place) place := by
  have kept : alter id edit.path place = place := alter_of_eq rfl
  have changes := (Action.changes_eq_false_iff own (proper.follow? edit.path)).1 unchanged
  have related : Option.Rel (Reordered SameNumbers) (edit.apply place) (alter id edit.path place) :=
    rel_alter proper proper (rel_refl numberEquality_same.refl place) edit.path changes
  rwa [kept] at related

section Equal

variable {alike : Number → Number → Prop} (equality : NumberEquality alike)

include equality

theorem rel_apply (edit : Edit) (proper : ProperAt place) (properOther : ProperAt other)
    (places : Option.Rel (Reordered alike) place other) :
    Option.Rel (Reordered alike) (edit.apply place) (edit.apply other) :=
  rel_alter proper properOther places edit.path
    (edit.action.rel_result equality (rel_follow? places edit.path))

theorem changes_eq (own : edit.action.Proper) (proper : ProperAt place)
    (properOther : ProperAt other) (places : Option.Rel (Reordered alike) place other) :
    edit.changes place = edit.changes other :=
  edit.action.changes_eq equality own (proper.follow? edit.path) (properOther.follow? edit.path)
    (rel_follow? places edit.path)

theorem rel_run (own : ProperAll edits) (proper : ProperAt place) (properOther : ProperAt other)
    (places : Option.Rel (Reordered alike) place other) :
    Option.Rel (Reordered alike) (run edits place) (run edits other) ∧
      runChanges edits place = runChanges edits other := by
  induction edits generalizing place other with
  | nil => exact ⟨places, rfl⟩
  | cons edit rest ih =>
      rcases List.forall_mem_cons.1 own with ⟨first, later⟩
      rcases ih later (properAt_apply first proper) (properAt_apply first properOther)
        (rel_apply equality edit proper properOther places) with ⟨last, more⟩
      refine ⟨last, ?_⟩
      rw [runChanges, runChanges, changes_eq equality first proper properOther places, more]

end Equal

end Edit

theorem Update.properAll_edits {assignments : List (FieldPath × Json)}
    {increments : List (FieldPath × Number)} {removals : List FieldPath}
    (own : (Update.operators assignments increments removals).Proper) :
    Edit.ProperAll (edits assignments increments removals) := by
  intro edit member
  simp only [edits, List.mem_append, List.mem_map] at member
  rcases member with (⟨part, inside, rfl⟩ | ⟨_, _, rfl⟩) | ⟨_, _, rfl⟩
  · exact own part inside
  · trivial
  · trivial

end DocTable
