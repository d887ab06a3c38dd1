import DocTable.Proofs.Sql.Choice
import DocTable.Sql.Draft

/-!
# Acceptance in all dialects

Whether a request can be turned into a statement is a matter of the request
alone. What a dialect might be unable to express never arises: conditions that
have been read compare nothing with null, and a dialect that cannot look inside
documents is asked for neither paths nor tests. So all dialects take the same
requests, and they refuse the others with the same error.
-/

namespace DocTable

open Sql

/-- A computation succeeds for every dialect, or it fails for every dialect with
the same error. -/
def Uniform {α : Type} (computation : Dialect → Except Error α) : Prop :=
  (∀ dialect, ∃ value, computation dialect = .ok value) ∨
    ∃ error, ∀ dialect, computation dialect = .error error

/-- A computation that succeeds and fails with a uniform one is uniform. -/
theorem Uniform.next {α β : Type} {first : Dialect → Except Error α}
    {second : Dialect → Except Error β} (uniform : Uniform first)
    (succeeds : ∀ dialect value, first dialect = .ok value →
      ∃ result, second dialect = .ok result)
    (fails : ∀ dialect error, first dialect = .error error → second dialect = .error error) :
    Uniform second := by
  rcases uniform with accepted | ⟨error, rejected⟩
  · left
    intro dialect
    rcases accepted dialect with ⟨value, returned⟩
    exact succeeds dialect value returned
  · right
    exact ⟨error, fun dialect => fails dialect error (rejected dialect)⟩

theorem Filter.choice_uniform (filter : Filter) :
    Uniform fun dialect => filter.choice dialect := by
  cases filter with
  | predicate test => exact .inl fun dialect => ⟨_, rfl⟩
  | declarative document =>
      cases read : Condition.ofDocument document with
      | error error =>
          have refused (dialect : Dialect) :
              choice dialect (.declarative document) = .error error := by
            rw [choice, read]
            rfl
          exact .inr ⟨error, refused⟩
      | ok condition =>
          have chosen (dialect : Dialect) :
              ∃ value, choice dialect (.declarative document) = .ok value := by
            rw [choice, read]
            exact ⟨_, rfl⟩
          exact .inl chosen

theorem Filter.whereClause_uniform (filter : Filter) :
    Uniform fun dialect => filter.whereClause dialect := by
  apply filter.choice_uniform.next
  · intro dialect choice chosen
    rcases filter.exists_fragment chosen with ⟨fragment, printed⟩
    exact ⟨_, whereClause_of_choice chosen printed⟩
  · intro dialect error failed
    exact whereClause_of_choice_error failed

/-- The paths of a search are read before its filter, and the counts that no
statement can bind are excluded. -/
theorem FindPlan.build_uniform (table : String) (filter : Filter) {options : FindOptions}
    (bounded : options.Bounded) :
    Uniform fun dialect => build dialect table filter options := by
  cases resolved : options.projection.mapM ProjectionRequest.resolve with
  | error error =>
      have refused (dialect : Dialect) : build dialect table filter options = .error error := by
        rw [build, resolved]
        rfl
      exact .inr ⟨error, refused⟩
  | ok projection =>
      cases sorted : sortTerms options.sortKeys with
      | error error =>
          have refused (dialect : Dialect) :
              build dialect table filter options = .error error := by
            rw [build, resolved, sorted]
            rfl
          exact .inr ⟨error, refused⟩
      | ok terms =>
          have valid : options.Valid := ⟨⟨projection, resolved⟩, ⟨terms, sorted⟩, bounded⟩
          apply filter.choice_uniform.next
          · intro dialect choice chosen
            rcases filter.exists_fragment chosen with ⟨fragment, printed⟩
            rcases exists_build table valid chosen printed with ⟨plan, built, -, -⟩
            exact ⟨plan, built⟩
          · intro dialect error failed
            exact build_of_choice_error table valid failed

/-- A regular condition can be rendered wherever the dialect has paths. -/
theorem Sql.Draft.exists_bindCondition (draft : Draft) {condition : Condition}
    (regular : condition.Regular) (engine : JsonDialect) (dialect : draft.dialect = .json engine) :
    ∃ result, draft.bindCondition condition = .ok result := by
  have printable := printable_toPredicate condition regular
  rcases Predicate.exists_fragment engine condition.toPredicate printable with
    ⟨fragment, printed, -⟩
  rw [bindCondition, dialect, printed]
  exact ⟨_, rfl⟩

/-- Acceptance does not depend on the dialect. The clause of every filter, and
every search whose counts can be bound, exist in all dialects or fail in all of
them with one error. What has been read of a match document compares nothing
with null and joins no empty list, so every dialect with paths renders it. -/
theorem Filter.accepted_alike (table : String) (filter : Filter) {options : FindOptions}
    (bounded : options.Bounded) :
    (Uniform fun dialect => filter.whereClause dialect) ∧
      (Uniform fun dialect => FindPlan.build dialect table filter options) ∧
      ∀ document condition, Condition.ofDocument document = .ok condition →
        condition.Regular ∧ ∀ (draft : Draft) (engine : JsonDialect),
          draft.dialect = .json engine →
            ∃ result, draft.bindCondition condition = .ok result := by
  refine ⟨filter.whereClause_uniform, FindPlan.build_uniform table filter bounded, ?_⟩
  intro document condition read
  have regular := Condition.regular_of_ofDocument read
  exact ⟨regular, fun draft engine dialect => draft.exists_bindCondition regular engine dialect⟩

/-- A search by name with a limit and an order is planned in every dialect. -/
theorem Filter.accepted_alike_of_name :
    FindOptions.Bounded { sort := some [⟨"age", .asc⟩], limit := some 2 } ∧
      Uniform fun dialect => FindPlan.build dialect "t" (.declarative ⟨[("name", .string "x")]⟩)
        { sort := some [⟨"age", .asc⟩], limit := some 2 } := by
  have bounded : FindOptions.Bounded { sort := some [⟨"age", .asc⟩], limit := some 2 } :=
    ⟨by simp, nofun⟩
  exact ⟨bounded, (accepted_alike "t" (.declarative ⟨[("name", .string "x")]⟩) bounded).2.1⟩

end DocTable
