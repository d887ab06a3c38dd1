import Mathlib.Data.List.Dedup
import DocTable.Proofs.Update.Nested

/-!
# Edits that agree

An edit agrees with another one if that one changes nothing in what it leaves. Among
edits that agree, the first one that changes a place puts a mark there that all
later ones respect, so the place is not the same in the end. On the other hand, every
list of edits has a place that is the same in the end. If no edit has changed it on
the way, the edits agree. So they agree exactly if their changes can be trusted.
-/

namespace DocTable

open Json

/-- What an action leaves if that does not depend on what stood there. -/
def Action.left? : Action → Option (Option Json)
  | .assign value => some (some value)
  | .add _ => none
  | .remove => some none

theorem Action.result_of_left? {action : Action} {left : Option Json}
    (leaves : action.left? = some left) (current : Option Json) : action.result current = left := by
  cases action with
  | add amount => cases leaves
  | assign value | remove => exact Option.some.inj leaves

namespace Edit

/-- The other edit changes nothing in what the edit leaves, if its path leads there or further
in. -/
def Agrees (edit other : Edit) : Prop :=
  edit.path <+: other.path → edit.action.left?.all fun left =>
    !other.action.changes (follow? left (other.path.drop edit.path.length))

instance (edit other : Edit) : Decidable (edit.Agrees other) :=
  inferInstanceAs (Decidable (_ → _))

/-- All edits agree with one another. -/
def Consistent (edits : List Edit) : Prop :=
  ∀ edit ∈ edits, ∀ other ∈ edits, edit.Agrees other

instance (edits : List Edit) : Decidable (Consistent edits) :=
  inferInstanceAs (Decidable (∀ edit ∈ edits, ∀ other ∈ edits, edit.Agrees other))

/-- After an edit that adds come neither assignments nor edits that add at the same path. -/
def Precedes (edit later : Edit) : Prop :=
  edit.Adds → (∀ value, later.action ≠ .assign value) ∧ (later.Adds → later.path ≠ edit.path)

variable {edit other later : Edit} {edits rest : List Edit} {place before : Option Json}

theorem Agrees.changes_eq_false (agrees : edit.Agrees other) {rest : List String}
    (path : other.path = edit.path ++ rest) {left : Option Json}
    (leaves : edit.action.left? = some left) :
    other.action.changes (follow? left rest) = false := by
  have agreement := agrees ⟨rest, path.symm⟩
  rw [leaves, Option.all_some, path, List.drop_left, Bool.not_eq_true'] at agreement
  exact agreement

theorem agrees_self (own : edit.action.Proper) : edit.Agrees edit := by
  rintro -
  rw [List.drop_length]
  cases leaves : edit.action.left? with
  | none => rfl
  | some left =>
      have result := Action.result_of_left? leaves
      have properLeft : ProperAt left := result none ▸ edit.action.properAt_result own properAt_none
      have kept := rel_refl numberEquality_same.refl left
      rw [Option.all_some, follow?_nil, Bool.not_eq_true',
        Action.changes_eq_false_iff own properLeft, result]
      exact kept

/-- What an edit that has changed something leaves for all later ones to see: the value that
it has put there, nothing if it has removed what stood there, or at least an object if it
has added. -/
def Marked (edit : Edit) (before current : Option Json) : Prop :=
  Option.Rel (Reordered SameNumbers) current (edit.action.result before) ∨
    edit.Adds ∧ ∃ fields, current = some (.object fields)

theorem Marked.not_rel {current : Option Json} (own : edit.action.Proper)
    (proper : ProperAt before) (properCurrent : ProperAt current)
    (changed : edit.action.changes before = true) (marked : edit.Marked before current) :
    ¬Option.Rel (Reordered SameNumbers) current before := by
  intro same
  rcases marked with put | ⟨⟨amount, adds⟩, fields, rfl⟩
  · have back := rel_symm numberEquality_same properCurrent
      (edit.action.properAt_result own proper) put
    have kept := rel_trans numberEquality_same (edit.action.properAt_result own proper) proper back
      same
    rw [(Action.changes_eq_false_iff own proper).2 kept] at changed
    cases changed
  · rcases rel_cases same with ⟨impossible, -⟩ | ⟨_, value, isObject, rfl, related⟩
    · cases impossible
    · cases isObject
      rcases related.shape with ⟨others, rfl, -⟩
      rw [adds] at changed
      cases changed

/-- Behind a name, an edit leaves the place as it is or leaves an object. -/
theorem apply_eq_or_object (nonempty : edit.path ≠ []) (place : Option Json) :
    edit.apply place = place ∨ ∃ fields, edit.apply place = some (.object fields) := by
  rcases edit with ⟨path, action⟩
  cases path with
  | nil => contradiction
  | cons key rest => exact putField_eq_or_object place key _

theorem follow?_result_add (amount : Number) {rest : List String} (nonempty : rest ≠ [])
    (current : Option Json) :
    follow? (Action.result (.add amount) current) rest = follow? current rest := by
  cases rest with
  | nil => contradiction
  | cons key rest =>
      rw [Action.result]
      cases found : incremented? current amount with
      | none => rfl
      | some value =>
          have nothing : follow? (some value) (key :: rest) = none := by
            rcases Action.incremented?_cases found with ⟨number, rfl⟩ | rfl <;> rfl
          rw [Option.some_or, nothing]
          cases current with
          | none => rfl
          | some own =>
              cases own with
              | number _ => rfl
              | null | bool _ | string _ | array _ | object _ => cases found

theorem adds_of_left?_eq_none (unknown : edit.action.left? = none) : edit.Adds := by
  rcases edit with ⟨path, action⟩
  cases action with
  | add amount => exact ⟨amount, rfl⟩
  | assign value | remove => cases unknown

theorem Adds.changes_none (adds : edit.Adds) : edit.action.changes none = true := by
  rcases adds with ⟨amount, action⟩
  rw [action]
  rfl

theorem path_ne_of_adds (adds : edit.Adds) (agreesBack : later.Agrees edit)
    (precedes : edit.Precedes later) : later.path ≠ edit.path := by
  intro same
  rcases precedes adds with ⟨noAssignment, noAddition⟩
  cases action : later.action with
  | assign value => exact noAssignment value action
  | add amount => exact noAddition ⟨amount, action⟩ same
  | remove =>
      have leaves : later.action.left? = some none := by rw [action]; rfl
      have here : edit.path = later.path ++ [] := by rw [same, List.append_nil]
      have settled := agreesBack.changes_eq_false here leaves
      rw [follow?_none, adds.changes_none] at settled
      cases settled

section Marks

variable (own : edit.action.Proper) (ownLater : later.action.Proper)
variable (properBefore : ProperAt before) (proper : ProperAt place)
variable (precedes : edit.Precedes later) (agreesBack : later.Agrees edit)
variable (marked : edit.Marked before (follow? place edit.path))

include own ownLater properBefore proper precedes agreesBack marked

theorem marked_apply_append (agrees : edit.Agrees later) {rest : List String}
    (path : later.path = edit.path ++ rest) :
    edit.Marked before (follow? (later.apply place) edit.path) := by
  let inner : Edit := ⟨rest, later.action⟩
  have ownInner : inner.action.Proper := ownLater
  have properHere : ProperAt (follow? place edit.path) := proper.follow? edit.path
  have seen : follow? (later.apply place) edit.path = inner.apply (follow? place edit.path) := by
    rw [apply, path, follow?_alter_append]
    rfl
  rw [seen]
  cases leaves : edit.action.left? with
  | some left =>
      have result := Action.result_of_left? leaves before
      have put : Option.Rel (Reordered SameNumbers) (follow? place edit.path) left := by
        rcases marked with put | ⟨⟨amount, adds⟩, -⟩
        · rwa [result] at put
        · rw [adds] at leaves
          cases leaves
      have properLeft : ProperAt left := result ▸ edit.action.properAt_result own properBefore
      have settled : inner.changes left = false := agrees.changes_eq_false path leaves
      have unchanged : inner.changes (follow? place edit.path) = false :=
        (changes_eq numberEquality_same ownInner properHere properLeft put).trans settled
      refine .inl ?_
      rw [result]
      exact rel_trans numberEquality_same (properAt_apply ownInner properHere) properLeft
        (rel_apply_of_changes ownInner properHere unchanged) put
  | none =>
      -- What the edit has added to may become an object, but nothing else.
      have adds := adds_of_left?_eq_none leaves
      have nonempty : inner.path ≠ [] := by
        rintro (rfl : rest = [])
        exact path_ne_of_adds adds agreesBack precedes (path.trans (List.append_nil _))
      rcases apply_eq_or_object nonempty (follow? place edit.path) with same | object
      · rwa [same]
      · exact .inr ⟨adds, object⟩

theorem marked_apply_above {rest : List String} (nonempty : rest ≠ [])
    (path : edit.path = later.path ++ rest) :
    edit.Marked before (follow? (later.apply place) edit.path) := by
  have seen : follow? (later.apply place) edit.path =
      follow? (later.action.result (follow? place later.path)) rest := by
    rw [path, follow?_append, apply, follow?_alter_self]
  rw [seen]
  cases leavesLater : later.action.left? with
  | none =>
      rcases adds_of_left?_eq_none leavesLater with ⟨amount, action⟩
      rw [action, follow?_result_add amount nonempty, ← follow?_append, ← path]
      exact marked
  | some left =>
      have settled := agreesBack.changes_eq_false path leavesLater
      have properLeft : ProperAt left := by
        rw [← Action.result_of_left? leavesLater (follow? place later.path)]
        exact later.action.properAt_result ownLater (proper.follow? later.path)
      rw [Action.result_of_left? leavesLater]
      cases leaves : edit.action.left? with
      | some put =>
          have kept := (Action.changes_eq_false_iff own (properLeft.follow? rest)).1 settled
          refine .inl (rel_symm numberEquality_same ?_ (properLeft.follow? rest) ?_)
          · exact edit.action.properAt_result own properBefore
          · rwa [Action.result_of_left? leaves] at kept ⊢
      | none =>
          -- No object is assigned behind an addition, and one that is removed would be missed.
          have adds := adds_of_left?_eq_none leaves
          cases action : later.action with
          | assign value => exact absurd action ((precedes adds).1 value)
          | add amount =>
              rw [action] at leavesLater
              cases leavesLater
          | remove =>
              rw [action] at leavesLater
              cases leavesLater
              rw [follow?_none, adds.changes_none] at settled
              cases settled

theorem marked_apply (agrees : edit.Agrees later) :
    edit.Marked before (follow? (later.apply place) edit.path) := by
  by_cases behind : edit.path <+: later.path
  · rcases behind with ⟨rest, path⟩
    exact marked_apply_append own ownLater properBefore proper precedes agreesBack marked agrees
      path.symm
  · by_cases above : later.path <+: edit.path
    · rcases above with ⟨rest, path⟩
      have nonempty : rest ≠ [] := by
        rintro rfl
        exact behind ⟨[], by rw [← path, List.append_nil, List.append_nil]⟩
      exact marked_apply_above own ownLater properBefore proper precedes agreesBack marked nonempty
        path.symm
    · rw [apply, follow?_alter_of_not_prefix above behind]
      exact marked

end Marks

/-- All later edits do. -/
theorem marked_run (own : edit.action.Proper) (ownRest : ProperAll rest)
    (properBefore : ProperAt before) (proper : ProperAt place)
    (precedes : ∀ later ∈ rest, edit.Precedes later)
    (agree : ∀ later ∈ rest, edit.Agrees later ∧ later.Agrees edit)
    (marked : edit.Marked before (follow? place edit.path)) :
    edit.Marked before (follow? (run rest place) edit.path) := by
  induction rest generalizing place with
  | nil => exact marked
  | cons later rest ih =>
      rcases List.forall_mem_cons.1 ownRest with ⟨ownLater, ownRest⟩
      rcases List.forall_mem_cons.1 precedes with ⟨first, precedes⟩
      rcases List.forall_mem_cons.1 agree with ⟨⟨agrees, agreesBack⟩, agree⟩
      exact ih ownRest (properAt_apply ownLater proper) precedes agree
        (marked_apply own ownLater properBefore proper first agreesBack marked agrees)

/-! ## Trusted changes -/

/-- Where no edit changes anything, an equal place is left, and each edit would have changed
nothing in the first place. -/
theorem rel_run_of_runChanges (own : ProperAll edits) (proper : ProperAt place)
    (unchanged : runChanges edits place = false) :
    Option.Rel (Reordered SameNumbers) (run edits place) place ∧
      ∀ edit ∈ edits, edit.changes place = false := by
  induction edits generalizing place with
  | nil => exact ⟨rel_refl numberEquality_same.refl place, List.forall_mem_nil _⟩
  | cons edit rest ih =>
      rcases List.forall_mem_cons.1 own with ⟨first, later⟩
      rw [runChanges, Bool.or_eq_false_iff] at unchanged
      have kept := rel_apply_of_changes first proper unchanged.1
      have properNext := properAt_apply first proper
      rcases ih later properNext unchanged.2 with ⟨last, others⟩
      have properLast := properAt_run later properNext
      refine ⟨rel_trans numberEquality_same properLast proper last kept, ?_⟩
      refine List.forall_mem_cons.2 ⟨unchanged.1, ?_⟩
      intro other member
      rw [← others other member]
      exact (changes_eq numberEquality_same (later other member) properNext proper kept).symm

/-- If the edits are consistent and one of them changes something, the place is another one in
the end. -/
theorem not_rel_run_of_runChanges (own : ProperAll edits) (proper : ProperAt place)
    (consistent : Consistent edits) (ordered : edits.Pairwise Precedes)
    (changed : runChanges edits place = true) :
    ¬Option.Rel (Reordered SameNumbers) (run edits place) place := by
  induction edits generalizing place with
  | nil => cases changed
  | cons edit rest ih =>
      rcases List.forall_mem_cons.1 own with ⟨first, later⟩
      rcases List.pairwise_cons.1 ordered with ⟨precedes, ordered⟩
      have properNext := properAt_apply first proper
      have properLast := properAt_run later properNext
      cases here : edit.changes place with
      | true =>
          -- The first edit that changes something leaves a mark, which is still there in the end.
          have start : edit.Marked (follow? place edit.path)
              (follow? (edit.apply place) edit.path) := by
            rw [apply, follow?_alter_self]
            exact .inl (rel_refl numberEquality_same.refl _)
          have agree : ∀ other ∈ rest, edit.Agrees other ∧ other.Agrees edit := fun other member =>
            ⟨consistent edit List.mem_cons_self other (List.mem_cons_of_mem _ member),
              consistent other (List.mem_cons_of_mem _ member) edit List.mem_cons_self⟩
          have marked := marked_run first later (proper.follow? edit.path) properNext precedes agree
            start
          intro same
          exact marked.not_rel first (proper.follow? edit.path) (properLast.follow? edit.path) here
            (rel_follow? same edit.path)
      | false =>
          rw [runChanges, here, Bool.false_or] at changed
          have kept := rel_apply_of_changes first proper here
          have others : Consistent rest := fun one member other memberOther =>
            consistent one (List.mem_cons_of_mem _ member) other
              (List.mem_cons_of_mem _ memberOther)
          intro same
          exact ih later properNext others ordered changed
            (rel_trans numberEquality_same properLast properNext same
              (rel_symm numberEquality_same properNext proper kept))

theorem consistent_of_changes (own : ProperAll edits) (proper : ProperAt place)
    (unchanged : ∀ edit ∈ edits, edit.changes place = false) : Consistent edits := by
  intro edit member other memberOther
  rintro ⟨rest, path⟩
  cases leaves : edit.action.left? with
  | none => rfl
  | some left =>
      have properHere : ProperAt (follow? place edit.path) := proper.follow? edit.path
      have kept := (Action.changes_eq_false_iff (own edit member) properHere).1
        (unchanged edit member)
      have properLeft := edit.action.properAt_result (own edit member) properHere
      rw [Action.result_of_left? leaves] at kept properLeft
      have settled := unchanged other memberOther
      rw [changes, ← path, follow?_append] at settled
      rw [Option.all_some, Bool.not_eq_true', ← path, List.drop_left, ← settled]
      exact Action.changes_eq numberEquality_same (own other memberOther) (properLeft.follow? rest)
        (properHere.follow? rest) (rel_follow? kept rest)

/-- The names with which the paths of edits begin. -/
def heads (edits : List Edit) : List String := (edits.filterMap (·.path.head?)).dedup

theorem below_eq_nil {name : String} (absent : name ∉ heads edits) : below name edits = [] := by
  rw [below, List.filterMap_eq_nil_iff]
  intro edit member
  cases seen : edit.below? name with
  | none => rfl
  | some inner =>
      have found : inner ∈ below name edits := List.mem_filterMap.2 ⟨edit, member, seen⟩
      rcases exists_of_mem_below found with ⟨above, inside, path, -⟩
      refine absurd ?_ absent
      rw [heads, List.mem_dedup, List.mem_filterMap]
      exact ⟨above, inside, by rw [path, List.head?_cons]⟩

/-- Every list of edits leaves some place as it is in the end. That place can be an object if
no edit assigns or removes it as a whole. -/
theorem exists_rel_run (own : ProperAll edits) :
    ∃ place, ProperAt place ∧ Option.Rel (Reordered SameNumbers) (run edits place) place ∧
      ((∀ edit ∈ edits, edit.path = [] → edit.Adds) → ∃ fields, place = some (.object fields)) := by
  induction edits using induction_below with
  | nil =>
      refine ⟨some (.object ∅), properAt_some.2 proper_empty, ?_, fun _ => ⟨∅, rfl⟩⟩
      exact rel_refl numberEquality_same.refl _
  | step edits ih =>
      by_cases adds : ∀ edit ∈ edits, edit.path = [] → edit.Adds
      · -- Under each name stands a place that the edits below the name leave as it is.
        have each (name : String) : ∃ inner, ProperAt inner ∧
            Option.Rel (Reordered SameNumbers) (run (below name edits) inner) inner := by
          rcases ih name (properAll_below own name) with ⟨inner, proper, stays, -⟩
          exact ⟨inner, proper, stays⟩
        choose inner proper stays using each
        let fields := Fields.collect (heads edits) inner
        have distinct : fields.Distinct := Fields.distinct_collect (List.nodup_dedup _) inner
        have properFields : (Json.object fields).Proper := by
          refine proper_object_iff.2 ⟨distinct, ?_⟩
          intro entry member
          have found := Fields.get?_eq_some_of_mem distinct member
          rw [Fields.get?_collect] at found
          split at found
          · exact proper entry.1 entry.2 found
          · cases found
        rcases exists_run_object adds fields with ⟨after, ran, values⟩
        have properAfter := properAt_run own (properAt_some.2 properFields)
        rw [ran, properAt_some] at properAfter
        refine ⟨some (.object fields), properAt_some.2 properFields, ?_, fun _ => ⟨fields, rfl⟩⟩
        rw [ran]
        refine .some ((reordered_object_iff (proper_object_iff.1 properAfter).1 distinct).2 ?_)
        intro name
        rw [values, Fields.get?_collect]
        split
        · exact stays name
        · next absent =>
            rw [below_eq_nil absent]
            exact .none
      · -- What stands at the place is forgotten.
        push Not at adds
        rcases adds with ⟨edit, member, here, forgets⟩
        refine ⟨run edits none, properAt_run own properAt_none, ?_, ?_⟩
        · rw [run_eq_run member here forgets _ none]
          exact rel_refl numberEquality_same.refl _
        · exact fun adds => absurd (adds edit member here) forgets

end Edit

end DocTable
