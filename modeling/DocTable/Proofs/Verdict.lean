import DocTable.Error

/-!
# Verdicts

Readers of user input either fail or return a value. A verdict says of such a
computation whether it accepts its input, as a truth value, and what is known
of the value if it does. Verdicts follow the steps of the computation, so the
acceptance of an input is put together from the acceptance of its parts.

Where nothing is said about acceptance, `Ensures` records what is known of a
returned value alone.
-/

namespace DocTable

/-- A computation that returns a value with a property if the input is
accepted, and fails if it is not. -/
inductive Verdict {α : Type} (property : α → Prop) : Except Error α → Bool → Prop where
  | accepted {value : α} (sound : property value) : Verdict property (.ok value) true
  | rejected (error : Error) : Verdict property (.error error) false

namespace Verdict

variable {α β : Type} {property stronger : α → Prop} {next : β → Prop}
variable {computation : Except Error α} {verdict other : Bool}

theorem pure {value : α} (sound : property value) :
    Verdict property (Pure.pure value) true :=
  accepted sound

theorem throw (error : Error) : Verdict property (MonadExcept.throw error) false :=
  rejected error

/-- A step behind another one is reached with what the first one returns. -/
theorem bind {step : α → Except Error β} (first : Verdict property computation verdict)
    (second : ∀ value, property value → Verdict next (step value) other) :
    Verdict next (computation >>= step) (verdict && other) := by
  cases first with
  | accepted sound => exact second _ sound
  | rejected error => exact rejected error

/-- Two computations whose values are combined. -/
theorem combine {γ : Type} {result : γ → Prop} {second : Except Error β} {join : α → β → γ}
    (first : Verdict property computation verdict) (rest : Verdict next second other)
    (sound : ∀ left right, property left → next right → result (join left right)) :
    Verdict result (computation >>= fun left => second >>= fun right => Pure.pure (join left right))
      (verdict && other) := by
  apply first.bind
  intro left ownLeft
  cases rest with
  | accepted ownRight => exact accepted (sound left _ ownLeft ownRight)
  | rejected error => exact rejected error

/-- A function of the value changes nothing about the acceptance. -/
theorem map {change : α → β} (first : Verdict property computation verdict)
    (sound : ∀ value, property value → next (change value)) :
    Verdict next (change <$> computation) verdict := by
  cases first with
  | accepted own => exact accepted (sound _ own)
  | rejected error => exact rejected error

/-- A check in front of a computation. -/
theorem ite {condition : Prop} [Decidable condition] {error : Error}
    (rest : ¬condition → Verdict property computation verdict) :
    Verdict property (if condition then MonadExcept.throw error else computation)
      (!decide condition && verdict) := by
  by_cases failed : condition
  · simp only [failed, if_true, decide_true, Bool.not_true, Bool.false_and]
    exact rejected error
  · simp only [failed, if_false, decide_false, Bool.not_false, Bool.true_and]
    exact rest failed

theorem of_eq (first : Verdict property computation verdict) (same : verdict = other) :
    Verdict property computation other :=
  same ▸ first

theorem exists_ok_iff (first : Verdict property computation verdict) :
    (∃ value, computation = .ok value) ↔ verdict = true := by
  cases first with
  | accepted sound => exact ⟨fun _ => rfl, fun _ => ⟨_, rfl⟩⟩
  | rejected error =>
      constructor
      · intro found
        rcases found with ⟨value, isOk⟩
        cases isOk
      · intro accepts
        cases accepts

theorem of_ok {value : α} (first : Verdict property computation verdict)
    (returned : computation = .ok value) : property value := by
  cases first with
  | accepted sound =>
      cases returned
      exact sound
  | rejected error => cases returned

end Verdict

/-- Whatever the computation returns has the property. -/
structure Ensures {α : Type} (property : α → Prop) (computation : Except Error α) : Prop where
  of_ok (value : α) : computation = .ok value → property value

namespace Ensures

variable {α β : Type} {property : α → Prop} {next : β → Prop} {computation : Except Error α}

theorem pure {value : α} (sound : property value) : Ensures property (Pure.pure value) := by
  constructor
  intro result returned
  cases returned
  exact sound

theorem throw (error : Error) : Ensures property (MonadExcept.throw error) := by
  constructor
  intro result returned
  cases returned

theorem bind {step : α → Except Error β} (first : Ensures property computation)
    (second : ∀ value, property value → Ensures next (step value)) :
    Ensures next (computation >>= step) := by
  cases computation with
  | error error => exact throw error
  | ok value => exact second value (first.of_ok value rfl)

theorem map {change : α → β} (first : Ensures property computation)
    (sound : ∀ value, property value → next (change value)) :
    Ensures next (change <$> computation) := by
  cases computation with
  | error error => exact throw error
  | ok value => exact pure (sound value (first.of_ok value rfl))

/-- Nothing is known of what has been computed. -/
theorem trivially (computation : Except Error α) : Ensures (fun _ => True) computation :=
  ⟨fun _ _ => trivial⟩

/-- A list is read element by element. -/
theorem mapM {step : β → Except Error α} {list : List β}
    (each : ∀ element ∈ list, Ensures property (step element)) :
    Ensures (fun values => ∀ value ∈ values, property value) (list.mapM step) := by
  induction list with
  | nil =>
      apply pure
      intro value member
      cases member
  | cons element rest ih =>
      rw [List.mapM_cons]
      apply (each element List.mem_cons_self).bind
      intro value sound
      apply (ih fun other member => each other (List.mem_cons_of_mem _ member)).bind
      intro values others
      apply pure
      intro other member
      rcases List.mem_cons.1 member with rfl | member
      · exact sound
      · exact others other member

end Ensures

/-- A computation that returns has been reached with what the one before it returned. -/
theorem exists_of_bind_eq_ok {α β : Type} {computation : Except Error α}
    {step : α → Except Error β} {value : β} (returned : computation >>= step = .ok value) :
    ∃ first, computation = .ok first ∧ step first = .ok value := by
  cases computation with
  | error error => cases returned
  | ok first => exact ⟨first, rfl, returned⟩

end DocTable
