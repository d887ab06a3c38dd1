import DocTable.Plan
import DocTable.Proofs.Sql.Binding
import DocTable.Proofs.Sql.Pushdown

/-!
# The parameters of statements

Outside quotations a statement has one placeholder for each of its parameters,
and from left to right they stand for the parameters in their order. What a
filter contributes are the literals of its condition other than null: grouping
a list of literals by kind moves them, and neither loses nor repeats any.
-/

namespace DocTable

namespace Sql

/-- The placeholders of a statement outside quotations are as many as its
parameters, carry their own numbers where the dialect has numbers, and stand for
the parameters in their order. A placeholder without a number stands for the
parameter at its position. -/
def Statement.Corresponds (dialect : Dialect) (statement : Statement) : Prop :=
  ∃ tokens, Token.scan? dialect statement.sql.toList = some tokens ∧
    Token.numbers tokens =
      (List.range' 1 statement.parameters.length).map dialect.numbering ∧
    ((Token.numbers tokens).mapIdx fun position number =>
      Token.parameter? statement.parameters (number.getD (position + 1))) =
        statement.parameters.map some

theorem Dialect.getD_numbering (dialect : Dialect) (index : Nat) :
    (dialect.numbering index).getD index = index := by
  rcases dialect with (_ | _ | _) | _ <;> rfl

namespace Fragment.Binds

variable {values : List Value} {fragment : Fragment}

/-- The parameters of a spaced fragment have their placeholders in its text. -/
theorem corresponds (dialect : Dialect) (binds : Binds values fragment) :
    (fragment.statement dialect).Corresponds dialect := by
  rcases Fragment.scan?_chars dialect 0 binds.spaced with ⟨tokens, scanned, numbers_eq⟩
  rw [Fragment.numbers] at numbers_eq
  refine ⟨tokens, ?_, numbers_eq, ?_⟩
  · simpa [Fragment.statement, Fragment.text] using scanned
  · rw [numbers_eq]
    apply List.ext_getElem
    · simp [Fragment.statement]
    · intro position _ inside
      have small : position < fragment.parameters.length := by
        simpa [Fragment.statement] using inside
      simp [Fragment.statement, Nat.add_comm 1, dialect.getD_numbering, Token.parameter?, small]

end Fragment.Binds

/-- A statement passes values if its placeholders stand for them. -/
structure Statement.Passes (dialect : Dialect) (values : List Value) (statement : Statement) :
    Prop where
  corresponds : statement.Corresponds dialect
  parameters_eq : statement.parameters = values

theorem Command.statement_passes (dialect : Dialect) (table : String) (command : Command) :
    Ensures (Statement.Passes dialect (command.values dialect))
      (command.statement dialect table) := by
  apply (command.fragment_binds dialect table).map
  intro fragment binds
  exact ⟨binds.corresponds dialect, binds.parameters_eq⟩

theorem Command.call_passes (dialect : Dialect) (table : String) (command : Command) :
    Ensures (fun call : Call => call.statement.Passes dialect (command.values dialect))
      (command.call dialect table) := by
  apply (command.statement_passes dialect table).bind
  intro statement passes
  exact Ensures.pure passes

theorem nodup_eraseDups (kinds : List ScalarKind) : kinds.eraseDups.Nodup := by
  match kinds with
  | [] => exact List.nodup_nil
  | kind :: rest =>
      rw [List.eraseDups_cons, List.nodup_cons]
      constructor
      · simp [List.mem_eraseDups]
      · exact nodup_eraseDups _
termination_by kinds.length
decreasing_by simpa using Nat.lt_succ_of_le (List.length_filter_le _ rest)

/-- The literals of some kinds are those of the first kind and those of the others. -/
theorem perm_filter_kinds (literals : List Scalar) {kinds : List ScalarKind}
    (nodup : kinds.Nodup) :
    (kinds.flatMap fun kind => literals.filter (·.kind? == some kind)).Perm
      (literals.filter fun literal => literal.kind?.any kinds.contains) := by
  induction kinds with
  | nil =>
      rw [List.filter_eq_nil_iff.2]
      · exact .nil
      · intro literal _
        cases literal.kind? <;> simp
  | cons kind rest ih =>
      rw [List.nodup_cons] at nodup
      let inKinds (literal : Scalar) : Bool := literal.kind?.any (kind :: rest).contains
      let isFirst (literal : Scalar) : Bool := literal.kind? == some kind
      have first : (literals.filter inKinds).filter isFirst = literals.filter isFirst := by
        rw [List.filter_filter]
        apply List.filter_congr
        intro literal _
        cases own : literal.kind? <;> simp_all [inKinds, isFirst]
      have others : ((literals.filter inKinds).filter fun literal => !isFirst literal) =
          literals.filter fun literal => literal.kind?.any rest.contains := by
        rw [List.filter_filter]
        apply List.filter_congr
        intro literal _
        cases own : literal.kind? with
        | none => simp [inKinds, own]
        | some other =>
            by_cases same : other = kind
            · simp [inKinds, isFirst, own, same, nodup.1]
            · simp [inKinds, isFirst, own, same]
      have split := List.filter_append_perm isFirst (literals.filter inKinds)
      rw [first, others] at split
      rw [List.flatMap_cons]
      exact ((ih nodup.2).append_left _).trans split

theorem perm_flatMap_kindsOf (literals : List Scalar) :
    ((Predicate.kindsOf literals).flatMap fun kind =>
      literals.filter (·.kind? == some kind)).Perm (literals.filter (· ≠ .null)) := by
  have nodup : (Predicate.kindsOf literals).Nodup := nodup_eraseDups _
  have kinds : (literals.filter fun literal =>
      literal.kind?.any (Predicate.kindsOf literals).contains) =
        literals.filter (· ≠ .null) := by
    apply List.filter_congr
    intro literal member
    cases literal with
    | null => rfl
    | bool _ | number _ | string _ =>
        have found := mem_kindsOf.2 ⟨_, member, rfl⟩
        simpa [Scalar.kind?] using found
  rw [← kinds]
  exact perm_filter_kinds literals nodup

end Sql

namespace Condition

mutual

/-- The literals that a condition compares with, in reading order. -/
def literals : Condition → List Scalar
  | .all parts | .any parts => literalsOf parts
  | .not part => literals part
  | .oneOf _ list => list
  | .compare _ _ literal => [literal]
  | .always | .exists .. | .isNull _ => []

/-- The literals that conditions compare with, in reading order. -/
def literalsOf : List Condition → List Scalar
  | [] => []
  | part :: rest => literals part ++ literalsOf rest

end

open Sql

theorem perm_literals_oneOf (path : FieldPath) (list : List Scalar) :
    (Predicate.oneOf path list).literals.Perm (list.filter (· ≠ .null)) := by
  cases list with
  | nil => exact .nil
  | cons first rest =>
      have null : (if (first :: rest).contains .null then [Predicate.nullOrMissing path]
          else []).flatMap Predicate.literals = [] := by
        split <;> rfl
      have ofKind : (fun kind => (group path (first :: rest) kind).literals) =
          fun kind => (first :: rest).filter (·.kind? == some kind) := by
        funext kind
        simp [group, Predicate.literals, Predicate.literalsOf]
      rw [oneOf_eq path (List.cons_ne_nil first rest), Predicate.literals,
        Predicate.literalsOf_eq_flatMap, groups, List.flatMap_append, null, List.flatMap_map,
        ofKind]
      exact perm_flatMap_kindsOf (first :: rest)

mutual

/-- A predicate has the literals of its condition other than null, each as often. -/
theorem perm_literals_toPredicate (condition : Condition) (regular : condition.Regular) :
    condition.toPredicate.literals.Perm (condition.literals.filter (· ≠ .null)) := by
  match condition with
  | .always | .all [] | .any [] | .isNull _ => exact .nil
  | .exists _ true | .exists _ false => exact .nil
  | .all (part :: rest) | .any (part :: rest) =>
      rw [toPredicate, literals, Predicate.literals]
      exact perm_literals_toPredicates (part :: rest) regular.2
  | .not part => exact perm_literals_toPredicate part regular
  | .oneOf path list => exact perm_literals_oneOf path list
  | .compare path comparison literal =>
      rw [Regular] at regular
      rcases exists_kind_of_ne_null regular with ⟨kind, ofKind⟩
      simp [toPredicate, Predicate.guarded, ofKind, Predicate.literals, Predicate.literalsOf,
        literals, regular]

theorem perm_literals_toPredicates (conditions : List Condition) (regular : AllRegular conditions) :
    (Predicate.literalsOf (toPredicates conditions)).Perm
      ((literalsOf conditions).filter (· ≠ .null)) := by
  match conditions with
  | [] => exact .nil
  | part :: rest =>
      rw [toPredicates, Predicate.literalsOf, literalsOf, List.filter_append]
      exact (perm_literals_toPredicate part regular.1).append
        (perm_literals_toPredicates rest regular.2)

end

end Condition

open Sql

/-- What a filter contributes to the values of a statement: if the engine does
the test, the literals of its condition other than null, each as often as it is
there, and otherwise nothing. -/
def Filter.Contributes (dialect : Dialect) (values : List Value) : Filter → Prop
  | .predicate _ => values = []
  | .declarative document =>
      match dialect with
      | .text => values = []
      | .json _ => ∃ condition, Condition.ofDocument document = .ok condition ∧
          values.Perm ((condition.literals.filter (· ≠ .null)).map dialect.literalValue)

theorem Filter.choice_contributes (dialect : Dialect) (filter : Filter) :
    Ensures (fun choice => filter.Contributes dialect (choice.predicate.values dialect))
      (filter.choice dialect) := by
  cases filter with
  | predicate test => exact Ensures.pure rfl
  | declarative document =>
      have read : Ensures (fun condition => Condition.ofDocument document = .ok condition)
          (Condition.ofDocument document) := ⟨fun _ returned => returned⟩
      apply read.bind
      intro condition returned
      cases dialect with
      | text => exact Ensures.pure rfl
      | json engine =>
          have literals := Condition.perm_literals_toPredicate condition
            (Condition.regular_of_ofDocument returned)
          exact Ensures.pure ⟨condition, returned, literals.map _⟩

/-- A command over a filter passes what the filter contributes. -/
theorem Filter.callWhere?_passes (dialect : Dialect) (table : String) (filter : Filter)
    {command : Predicate → Command}
    (own : ∀ predicate, (command predicate).values dialect = predicate.values dialect) :
    Ensures (fun call? : Option Call => ∀ call ∈ call?, ∃ values,
        filter.Contributes dialect values ∧ call.statement.Passes dialect values)
      (filter.callWhere? dialect table command) := by
  apply (filter.choice_contributes dialect).bind
  intro choice contributes
  split
  · exact Ensures.pure nofun
  · apply ((command choice.predicate).call_passes dialect table).bind
    intro call passes
    rw [own] at passes
    apply Ensures.pure
    intro other member
    cases member
    exact ⟨_, contributes, passes⟩

/-- The values of a search are those of its filter and then, unless every row
is read, the limit and the number of rows to leave out. -/
theorem FindPlan.build_passes (dialect : Dialect) (table : String) (filter : Filter)
    (options : FindOptions) :
    Ensures (fun plan => ∃ values, filter.Contributes dialect values ∧
        plan.call.statement.Passes dialect (values ++
          if plan.scan.isSome then []
          else Dialect.countValues options.effectiveLimit options.effectiveSkip))
      (FindPlan.build dialect table filter options) := by
  apply (Ensures.trivially (options.projection.mapM ProjectionRequest.resolve)).bind
  intro projection _
  apply (Ensures.trivially (sortTerms options.sortKeys)).bind
  intro sort _
  apply (filter.choice_contributes dialect).bind
  intro choice contributes
  cases choice.rowTest with
  | none =>
      apply (Command.call_passes dialect table _).bind
      intro call passes
      exact Ensures.pure ⟨_, contributes, passes⟩
  | some test =>
      apply (Command.call_passes dialect table _).bind
      intro call passes
      exact Ensures.pure ⟨_, contributes, passes⟩

/-- Whatever is asked of an engine, the placeholders stand for the values of
the command in their order, and what comes from a filter are the literals of its
condition other than null. -/
theorem Sql.parameters_correspond (dialect : Dialect) (table : String) :
    (∀ command statement, Command.statement dialect table command = .ok statement →
      statement.Passes dialect (command.values dialect)) ∧
    (∀ (filter : Filter) options plan, FindPlan.build dialect table filter options = .ok plan →
      ∃ values, filter.Contributes dialect values ∧
        plan.call.statement.Passes dialect (values ++
          if plan.scan.isSome then []
          else Dialect.countValues options.effectiveLimit options.effectiveSkip)) ∧
    (∀ (filter : Filter) call, filter.callWhere? dialect table .count = .ok (some call) →
      ∃ values, filter.Contributes dialect values ∧ call.statement.Passes dialect values) ∧
    (∀ (filter : Filter) call, filter.callWhere? dialect table .deleteWhere = .ok (some call) →
      ∃ values, filter.Contributes dialect values ∧ call.statement.Passes dialect values) := by
  refine ⟨?_, ?_, ?_, ?_⟩
  · intro command statement returned
    exact (command.statement_passes dialect table).of_ok statement returned
  · intro filter options plan built
    exact (FindPlan.build_passes dialect table filter options).of_ok plan built
  · intro filter call returned
    exact (filter.callWhere?_passes dialect table fun _ => rfl).of_ok _ returned call rfl
  · intro filter call returned
    exact (filter.callWhere?_passes dialect table fun _ => rfl).of_ok _ returned call rfl

/-- Of one and null the one is bound, and a limit behind it; the dollar sign in
the name of the table is no placeholder. -/
theorem Sql.parameters_correspond_of_search :
    ∃ plan, FindPlan.build (.json .postgres) "t$1"
        (.declarative ⟨[("a", .object ⟨[("$in",
          .array [.number (.integer 1 (by decide)), .null])]⟩)]⟩) { limit := some 2 } = .ok plan ∧
      plan.call.statement.Passes (.json .postgres) [.text "1", .integer 2] := by
  refine ⟨_, rfl, ?_⟩
  have search := (parameters_correspond (.json .postgres) "t$1").2.1
    (.declarative ⟨[("a", .object ⟨[("$in", .array [.number (.integer 1 (by decide)), .null])]⟩)]⟩)
    { limit := some 2 }
  rcases search _ rfl with ⟨values, ⟨condition, read, literals⟩, passes⟩
  cases read
  have one : values = [.text "1"] := List.perm_singleton.1 literals
  rw [one] at passes
  exact passes

end DocTable
