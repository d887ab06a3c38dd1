import DocTable.Proofs.Update.Edit

/-!
# Edits below a name

What a run of edits does to an object, it does name by name: under each name it runs
the edits whose paths begin with that name, with the rest of their paths. An edit at
the place itself is one that has no path. If it assigns or removes, what stood there
is forgotten; if it adds, an object is left alone.
-/

namespace DocTable.Edit

open Json

/-- The edit as it is seen from below a name, if its path begins with that name. -/
def below? (name : String) (edit : Edit) : Option Edit :=
  match edit.path with
  | [] => none
  | key :: rest => if key = name then some ⟨rest, edit.action⟩ else none

/-- The edits whose paths begin with a name, as they are seen from below it. -/
def below (name : String) (edits : List Edit) : List Edit := edits.filterMap (below? name)

/-- Whether the edit adds to what stands at the end of its path. -/
def Adds (edit : Edit) : Prop := ∃ amount, edit.action = .add amount

variable {edit : Edit} {edits : List Edit} {name : String} {place other : Option Json}

theorem below_append (name : String) (edits rest : List Edit) :
    below name (edits ++ rest) = below name edits ++ below name rest :=
  List.filterMap_append

theorem exists_of_mem_below (member : edit ∈ below name edits) :
    ∃ above ∈ edits, above.path = name :: edit.path ∧ above.action = edit.action := by
  rcases List.mem_filterMap.1 member with ⟨above, inside, seen⟩
  refine ⟨above, inside, ?_⟩
  rw [below?] at seen
  split at seen
  · cases seen
  · next key rest path =>
      split at seen
      · next same =>
          cases seen
          exact ⟨same ▸ path, rfl⟩
      · cases seen

theorem length_lt_of_mem_below (member : edit ∈ below name edits) :
    ∃ above ∈ edits, edit.path.length < above.path.length := by
  rcases exists_of_mem_below member with ⟨above, inside, path, -⟩
  exact ⟨above, inside, by rw [path, List.length_cons]; omega⟩

/-- What passes from the edits below all names to the whole list holds of all lists: a name
less stands in front of the edits below it. -/
theorem induction_below {motive : List Edit → Prop} (nil : motive [])
    (step : ∀ edits, (∀ name, motive (below name edits)) → motive edits) (edits : List Edit) :
    motive edits := by
  have bounded : ∃ depth, ∀ edit ∈ edits, edit.path.length < depth := by
    induction edits with
    | nil => exact ⟨0, List.forall_mem_nil _⟩
    | cons edit rest ih =>
        rcases ih with ⟨depth, short⟩
        refine ⟨edit.path.length + depth + 1, List.forall_mem_cons.2 ⟨by omega, ?_⟩⟩
        intro other member
        have shorter := short other member
        omega
  rcases bounded with ⟨depth, short⟩
  induction depth generalizing edits with
  | zero =>
      cases edits with
      | nil => exact nil
      | cons edit rest => exact absurd (short edit List.mem_cons_self) (Nat.not_lt_zero _)
  | succ depth ih =>
      apply step
      intro name
      apply ih
      intro edit member
      rcases length_lt_of_mem_below member with ⟨above, inside, longer⟩
      have bounded := short above inside
      omega

theorem properAll_below (own : ProperAll edits) (name : String) : ProperAll (below name edits) := by
  intro edit member
  rcases exists_of_mem_below member with ⟨above, inside, -, action⟩
  exact action ▸ own above inside

/-- An edit at the place itself that does not add forgets what stood there. -/
theorem apply_eq_apply (here : edit.path = []) (forgets : ¬edit.Adds) (place other : Option Json) :
    edit.apply place = edit.apply other := by
  rcases edit with ⟨path, action⟩
  cases here
  cases action with
  | assign value => rfl
  | add amount => exact absurd ⟨amount, rfl⟩ forgets
  | remove => rfl

theorem run_eq_run (member : edit ∈ edits) (here : edit.path = []) (forgets : ¬edit.Adds)
    (place other : Option Json) : run edits place = run edits other := by
  rcases List.append_of_mem member with ⟨before, after, rfl⟩
  rw [run_append, run_append, run_cons, run_cons, apply_eq_apply here forgets]

theorem exists_apply_object (adds : edit.path = [] → edit.Adds) (fields : Fields Json) :
    ∃ after, edit.apply (some (.object fields)) = some (.object after) ∧
      ∀ name, after.get? name = run (edit.below? name).toList (fields.get? name) := by
  rcases edit with ⟨path, action⟩
  cases path with
  | nil =>
      rcases adds rfl with ⟨amount, action_eq⟩
      cases action_eq
      exact ⟨fields, rfl, fun name => rfl⟩
  | cons key rest =>
      rcases exists_object_putField (.inl ⟨fields, rfl⟩) with ⟨after, object⟩
      refine ⟨after, object, ?_⟩
      intro name
      rw [← fieldsAt_object after, ← object]
      by_cases same : name = key
      · subst same
        rw [get?_putField_self, below?]
        simp [apply]
      · rw [get?_putField_of_ne _ _ same, below?]
        simp [Ne.symm same]

theorem exists_run_object (adds : ∀ edit ∈ edits, edit.path = [] → edit.Adds)
    (fields : Fields Json) :
    ∃ after, run edits (some (.object fields)) = some (.object after) ∧
      ∀ name, after.get? name = run (below name edits) (fields.get? name) := by
  induction edits generalizing fields with
  | nil => exact ⟨fields, rfl, fun name => rfl⟩
  | cons edit rest ih =>
      rcases List.forall_mem_cons.1 adds with ⟨own, later⟩
      rcases exists_apply_object own fields with ⟨next, applied, first⟩
      rcases ih later next with ⟨after, last, more⟩
      refine ⟨after, by rw [run_cons, applied, last], ?_⟩
      intro name
      rw [more, first, ← run_append]
      congr 1
      cases seen : edit.below? name <;> simp [below, seen]

end DocTable.Edit
