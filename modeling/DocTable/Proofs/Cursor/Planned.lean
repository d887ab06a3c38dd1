import DocTable.Collection
import DocTable.Proofs.Sql.Search

/-!
# Plans and their options

A plan is put together from what its options and its filter are read as. A search
that is scanned reads the same rows whatever its counts are, so it differs from
the search with other counts only in what its cursor does; where the engine does
the search, a search that can be planned can also be planned for one document.
-/

namespace DocTable

theorem FindOptions.getD_effectiveSkip (options : FindOptions) :
    options.effectiveSkip.getD 0 = options.skip.getD 0 := by
  rw [effectiveSkip]
  match options.skip with
  | none => rfl
  | some 0 => rfl
  | some (skip + 1) => rfl

theorem sortTerms_eq_nil_iff {keys : List SortKey} {terms : List SortTerm}
    (sorted : sortTerms keys = .ok terms) : terms = [] ↔ keys = [] := by
  cases keys with
  | nil =>
      cases sorted
      exact ⟨fun _ => rfl, fun _ => rfl⟩
  | cons key rest =>
      rw [sortTerms, List.mapM_cons] at sorted
      rcases exists_of_bind_eq_ok sorted with ⟨term, -, sorted⟩
      rcases exists_of_bind_eq_ok sorted with ⟨terms, -, sorted⟩
      cases sorted
      exact ⟨nofun, nofun⟩

theorem exists_of_sortTerms {keys : List SortKey} {terms : List SortTerm}
    (sorted : sortTerms keys = .ok terms) {term : SortTerm} (member : term ∈ terms) :
    ∃ key ∈ keys, FieldPath.parse key.field = .ok term.1 := by
  have each : ∀ key ∈ keys, Ensures (fun term : SortTerm =>
      ∃ key ∈ keys, FieldPath.parse key.field = .ok term.1)
        (do return (← FieldPath.parse key.field, key.order)) := by
    intro key inKeys
    constructor
    intro term read
    rcases exists_of_bind_eq_ok read with ⟨path, parsed, read⟩
    cases read
    exact ⟨key, inKeys, parsed⟩
  exact (Ensures.mapM each).of_ok terms sorted term member

namespace FindPlan

variable {dialect : Sql.Dialect} {table : String} {filter : Filter} {options : FindOptions}
variable {plan : FindPlan}

/-- What a plan is put together from. -/
theorem build_eq_ok_iff :
    build dialect table filter options = .ok plan ↔
      ∃ sort choice, options.projection.mapM ProjectionRequest.resolve = .ok plan.projection ∧
        sortTerms options.sortKeys = .ok sort ∧ filter.choice dialect = .ok choice ∧
        match choice.rowTest with
        | none => plan.scan = none ∧
            (Sql.Command.select choice.predicate (if sort.isEmpty then none else some sort)
              options.effectiveLimit options.effectiveSkip).call dialect table = .ok plan.call
        | some test =>
            plan.scan = some ⟨test, sort, options.skip.getD 0, options.effectiveLimit⟩ ∧
            (Sql.Command.select choice.predicate (some []) none none).call dialect table =
              .ok plan.call := by
  rw [← options.getD_effectiveSkip]
  constructor
  · intro built
    rcases exists_of_bind_eq_ok built with ⟨projection, resolved, built⟩
    rcases exists_of_bind_eq_ok built with ⟨sort, sorted, built⟩
    rcases exists_of_bind_eq_ok built with ⟨⟨predicate, test⟩, chosen, built⟩
    cases test with
    | none =>
        rcases exists_of_bind_eq_ok built with ⟨call, called, built⟩
        cases built
        exact ⟨sort, _, resolved, sorted, chosen, rfl, called⟩
    | some test =>
        rcases exists_of_bind_eq_ok built with ⟨call, called, built⟩
        cases built
        exact ⟨sort, _, resolved, sorted, chosen, rfl, called⟩
  · rcases plan with ⟨call, scan, projection⟩
    rintro ⟨sort, ⟨predicate, test⟩, resolved, sorted, chosen, parts⟩
    let planned (call : Sql.Call) : Except Error FindPlan := pure ⟨call, scan, projection⟩
    rw [build, resolved, sorted, chosen]
    cases test with
    | none =>
        rcases parts with ⟨rfl, called⟩
        exact congrArg (· >>= planned) called
    | some test =>
        rcases parts with ⟨rfl, called⟩
        exact congrArg (· >>= planned) called

end FindPlan

end DocTable
