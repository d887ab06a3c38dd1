import DocTable.Proofs.Filter.Meaning
import DocTable.Proofs.Sql.Sqlite
import DocTable.Sql.Draft

/-!
# Filters in SQL

The text of a condition, read by an engine and evaluated in three-valued
logic, is true of exactly those rows whose documents satisfy the condition.
The guard in front of a comparison keeps values of another type from
mattering, and a negation turns what is unknown below it into a definite truth
value, so nothing unknown is left where it could choose a row.
-/

namespace DocTable.Sql

open Condition

/-- A value has an order with a literal exactly if it has the literal's type. -/
theorem compare?_isSome_iff (value : Option Json) {literal : Scalar} {kind : ScalarKind}
    (ofKind : literal.kind? = some kind) :
    (value.bind (Scalar.compare? · literal)).isSome = true ↔
      value.bind Predicate.kindOf? = some kind := by
  cases value with
  | none => simp
  | some value =>
      cases literal with
      | null => cases ofKind
      | bool _ | number _ | string _ =>
          cases ofKind
          cases value <;>
            simp [Scalar.compare?, Predicate.kindOf?, Scalar.ofJson?, Scalar.kind?]

theorem mem_kindsOf {literals : List Scalar} {kind : ScalarKind} :
    kind ∈ Predicate.kindsOf literals ↔ ∃ literal ∈ literals, literal.kind? = some kind := by
  rw [Predicate.kindsOf, List.mem_eraseDups, List.mem_filterMap]

theorem exists_kind_of_ne_null {literal : Scalar} (nonnull : literal ≠ .null) :
    ∃ kind, literal.kind? = some kind := by
  cases literal with
  | null => contradiction
  | bool _ | number _ | string _ => exact ⟨_, rfl⟩

/-- The test for the literals of one kind. -/
def group (path : FieldPath) (literals : List Scalar) (kind : ScalarKind) : Predicate :=
  .all [.ofKind path kind, .among path (literals.filter (·.kind? == some kind))]

/-- The parts of the test for a list of literals. -/
def groups (path : FieldPath) (literals : List Scalar) : List Predicate :=
  (if literals.contains .null then [.nullOrMissing path] else []) ++
    (Predicate.kindsOf literals).map (group path literals)

theorem oneOf_eq (path : FieldPath) {literals : List Scalar} (nonempty : literals ≠ []) :
    Predicate.oneOf path literals = .any (groups path literals) := by
  rw [Predicate.oneOf, if_neg (by simpa using nonempty)]
  rfl

theorem mem_groups {path : FieldPath} {literals : List Scalar} {part : Predicate} :
    part ∈ groups path literals ↔ (Scalar.null ∈ literals ∧ part = .nullOrMissing path) ∨
      ∃ literal ∈ literals, ∃ kind, literal.kind? = some kind ∧
        part = group path literals kind := by
  rw [groups, List.mem_append, List.mem_map]
  apply or_congr
  · by_cases null : Scalar.null ∈ literals <;> simp [null]
  · constructor
    · intro found
      rcases found with ⟨kind, inKinds, rfl⟩
      rcases mem_kindsOf.1 inKinds with ⟨literal, member, ofKind⟩
      exact ⟨literal, member, kind, ofKind, rfl⟩
    · intro found
      rcases found with ⟨literal, member, kind, ofKind, rfl⟩
      exact ⟨kind, mem_kindsOf.2 ⟨literal, member, ofKind⟩, rfl⟩

theorem groups_ne_nil (path : FieldPath) {literals : List Scalar} (nonempty : literals ≠ []) :
    groups path literals ≠ [] := by
  rcases List.exists_mem_of_ne_nil literals nonempty with ⟨literal, member⟩
  by_cases null : literal = .null
  · subst null
    exact List.ne_nil_of_mem (mem_groups.2 (.inl ⟨member, rfl⟩))
  · rcases exists_kind_of_ne_null null with ⟨kind, ofKind⟩
    exact List.ne_nil_of_mem (mem_groups.2 (.inr ⟨literal, member, kind, ofKind, rfl⟩))

theorem printable_guarded (path : FieldPath) (comparison : Comparison) {literal : Scalar}
    (nonnull : literal ≠ .null) : (Predicate.guarded path comparison literal).Printable := by
  rcases exists_kind_of_ne_null nonnull with ⟨kind, ofKind⟩
  simp [Predicate.guarded, ofKind, Predicate.Printable, Predicate.AllPrintable, nonnull]

theorem printable_oneOf (path : FieldPath) (literals : List Scalar) :
    (Predicate.oneOf path literals).Printable := by
  by_cases nonempty : literals = []
  · subst nonempty
    trivial
  · rw [oneOf_eq path nonempty, Predicate.Printable, Predicate.allPrintable_iff]
    refine ⟨groups_ne_nil path nonempty, ?_⟩
    intro part member
    rcases mem_groups.1 member with ⟨-, rfl⟩ | ⟨literal, inList, kind, ofKind, rfl⟩
    · trivial
    · have found : literal ∈ literals.filter (·.kind? == some kind) := by
        simp [inList, ofKind]
      refine ⟨by simp, trivial, ?_, trivial⟩
      exact List.ne_nil_of_mem found

mutual

theorem printable_toPredicate (condition : Condition) (regular : condition.Regular) :
    condition.toPredicate.Printable := by
  match condition with
  | .always => trivial
  | .all [] | .any [] => trivial
  | .all (part :: rest) | .any (part :: rest) =>
      rw [Regular] at regular
      rcases regular.2 with ⟨first, others⟩
      rw [toPredicate, Predicate.Printable]
      exact ⟨by simp, printable_toPredicate part first, printable_toPredicates rest others⟩
  | .not part =>
      rw [Regular] at regular
      rw [toPredicate, Predicate.Printable]
      exact printable_toPredicate part regular
  | .exists path true | .exists path false => trivial
  | .isNull path => trivial
  | .oneOf path literals => exact printable_oneOf path literals
  | .compare path comparison literal =>
      rw [Regular] at regular
      exact printable_guarded path comparison regular

theorem printable_toPredicates (conditions : List Condition) (regular : AllRegular conditions) :
    Predicate.AllPrintable (toPredicates conditions) := by
  match conditions with
  | [] => trivial
  | part :: rest =>
      rw [AllRegular] at regular
      rw [toPredicates, Predicate.AllPrintable]
      exact ⟨printable_toPredicate part regular.1, printable_toPredicates rest regular.2⟩

end

variable {dialect : JsonDialect} {engine : Engine} (document : Document)

theorem truth_constant (engine : Expression → Truth) (value : Bool) :
    ((Predicate.constant value).expression dialect).truth engine = some value := by
  cases value <;> rfl

theorem truth_compare (engine : Expression → Truth) (comparison : Comparison)
    (operand : Expression) (literal : Scalar) :
    (Expression.compare comparison operand (dialect.literal literal)).truth engine =
      engine (.compare comparison operand (dialect.literal literal)) := by
  cases dialect with
  | sqlite | mysql | postgres => cases operand <;> rfl

/-- Behind the guard for its type a comparison is what it is in process. -/
theorem truth_guardedCompare (supported : dialect.SupportedBy engine) (path : FieldPath)
    (comparison : Comparison) {literal : Scalar} {kind : ScalarKind}
    (ofKind : literal.kind? = some kind) :
    ((dialect.kindTested path kind).truth (engine document) = some true ∧
        engine document (.compare comparison (dialect.extracted path) (dialect.literal literal)) =
          some true) ↔
      (Condition.compare path comparison literal).holds document = true := by
  rw [supported.kind, ← compare?_isSome_iff _ ofKind, Condition.holds]
  cases found : (document.lookup? path).bind (Scalar.compare? · literal) with
  | none => simp
  | some order => simp [supported.order document path comparison literal order found]

theorem truth_guarded (supported : dialect.SupportedBy engine) (path : FieldPath)
    (comparison : Comparison) {literal : Scalar} (nonnull : literal ≠ .null) :
    ((Predicate.guarded path comparison literal).expression dialect).truth (engine document) =
        some true ↔
      (Condition.compare path comparison literal).holds document = true := by
  rcases exists_kind_of_ne_null nonnull with ⟨kind, ofKind⟩
  have parts : (Predicate.guarded path comparison literal).expression dialect =
      Expression.joined .both [dialect.kindTested path kind,
        .compare comparison (dialect.extracted path) (dialect.literal literal)] := by
    simp [Predicate.guarded, ofKind, Predicate.expression, Predicate.expressions]
  rw [parts, Expression.truth_joined_both,
    ← truth_guardedCompare document supported path comparison ofKind]
  simp [truth_compare]

/-- An element of a list other than null is equal where a comparison holds. -/
theorem equals_eq_holds (path : FieldPath) {literal : Scalar} (nonnull : literal ≠ .null) :
    equals (document.lookup? path) literal =
      (Condition.compare path .eq literal).holds document := by
  have equal_eq : equal path literal = .compare path .eq literal := by
    cases literal with
    | null => contradiction
    | bool _ | number _ | string _ => rfl
  rw [equals_eq, ← equal_eq, (means_equal path literal).holds_eq]

/-- A group is true where one of its literals equals the value. -/
theorem truth_group (supported : dialect.SupportedBy engine) (path : FieldPath)
    (literals : List Scalar) (kind : ScalarKind) :
    ((group path literals kind).expression dialect).truth (engine document) = some true ↔
      ∃ literal ∈ literals, literal.kind? = some kind ∧
        equals (document.lookup? path) literal = true := by
  have parts : (group path literals kind).expression dialect =
      Expression.joined .both [dialect.kindTested path kind, .among (dialect.extracted path)
        ((literals.filter (·.kind? == some kind)).map dialect.literal)] := by
    simp [group, Predicate.expression, Predicate.expressions]
  have element {literal : Scalar} (ofKind : literal.kind? = some kind) :
      equals (document.lookup? path) literal =
        (Condition.compare path .eq literal).holds document := by
    apply equals_eq_holds
    rintro rfl
    cases ofKind
  rw [parts, Expression.truth_joined_both]
  simp only [List.forall_mem_cons, List.not_mem_nil, false_implies, implies_true, and_true,
    Expression.truth, Truth.any_eq_true_iff, List.mem_map, List.mem_filter, beq_iff_eq]
  constructor
  · intro found
    rcases found with ⟨guard, expression, ⟨literal, ⟨member, ofKind⟩, rfl⟩, compared⟩
    refine ⟨literal, member, ofKind, ?_⟩
    rw [element ofKind]
    exact (truth_guardedCompare document supported path .eq ofKind).1 ⟨guard, compared⟩
  · intro found
    rcases found with ⟨literal, member, ofKind, equal⟩
    rw [element ofKind] at equal
    rcases (truth_guardedCompare document supported path .eq ofKind).2 equal with ⟨guard, compared⟩
    exact ⟨guard, _, ⟨literal, ⟨member, ofKind⟩, rfl⟩, compared⟩

theorem truth_oneOf (supported : dialect.SupportedBy engine) (path : FieldPath)
    (literals : List Scalar) :
    ((Predicate.oneOf path literals).expression dialect).truth (engine document) = some true ↔
      (Condition.oneOf path literals).holds document = true := by
  rw [Condition.holds]
  by_cases nonempty : literals = []
  · subst nonempty
    have constant : Predicate.oneOf path [] = .constant false := rfl
    rw [constant, truth_constant]
    simp
  · rw [oneOf_eq path nonempty, Predicate.expression, Predicate.expressions_eq_map]
    rcases List.exists_cons_of_ne_nil (groups_ne_nil path nonempty) with ⟨first, rest, groups_eq⟩
    rw [groups_eq, List.map_cons, Expression.truth_joined_either, ← List.map_cons, ← groups_eq]
    simp only [List.mem_map, exists_exists_and_eq_and, mem_groups, List.any_eq_true]
    constructor
    · intro found
      rcases found with ⟨part, ⟨null, rfl⟩ | ⟨literal, -, kind, -, rfl⟩, holds⟩
      · refine ⟨.null, null, ?_⟩
        rw [Predicate.expression, supported.null] at holds
        simpa [equals] using holds
      · rcases (truth_group document supported path literals kind).1 holds with
          ⟨found, member, -, equal⟩
        exact ⟨found, member, equal⟩
    · intro found
      rcases found with ⟨literal, member, equal⟩
      by_cases null : literal = .null
      · subst null
        refine ⟨_, .inl ⟨member, rfl⟩, ?_⟩
        rw [Predicate.expression, supported.null]
        simpa [equals] using equal
      · rcases exists_kind_of_ne_null null with ⟨kind, ofKind⟩
        refine ⟨_, .inr ⟨literal, member, kind, ofKind, rfl⟩, ?_⟩
        exact (truth_group document supported path literals kind).2 ⟨literal, member, ofKind, equal⟩

mutual

/-- The expression of a condition is true where the condition holds. -/
theorem truth_toPredicate (supported : dialect.SupportedBy engine) (condition : Condition)
    (regular : condition.Regular) :
    (condition.toPredicate.expression dialect).truth (engine document) = some true ↔
      condition.holds document = true := by
  match condition with
  | .always | .all [] | .any [] =>
      rw [toPredicate, truth_constant]
      simp [Condition.holds, allHold, anyHolds]
  | .all (part :: rest) =>
      rw [Regular] at regular
      rcases regular.2 with ⟨first, others⟩
      rw [toPredicate, Predicate.expression, Predicate.expressions, Expression.truth_joined_both,
        List.forall_mem_cons, truth_toPredicate supported part first,
        forall_truth_toPredicates supported rest others, Condition.holds, allHold,
        Bool.and_eq_true]
  | .any (part :: rest) =>
      rw [Regular] at regular
      rcases regular.2 with ⟨first, others⟩
      rw [toPredicate, Predicate.expression, Predicate.expressions, Expression.truth_joined_either,
        List.exists_mem_cons_iff, truth_toPredicate supported part first,
        exists_truth_toPredicates supported rest others, Condition.holds, anyHolds,
        Bool.or_eq_true]
  | .not part =>
      rw [Regular] at regular
      rw [toPredicate, Predicate.expression, Expression.truth_notTrue,
        truth_toPredicate supported part regular, Condition.holds]
      simp
  | .exists path true =>
      rw [toPredicate, Predicate.expression, supported.existence, Condition.holds]
      simp
  | .exists path false =>
      rw [toPredicate, Predicate.expression, Predicate.expression, Expression.truth,
        supported.existence, Condition.holds]
      simp [Truth.not]
  | .isNull path =>
      rw [toPredicate, Predicate.expression, supported.null, Condition.holds]
      simp
  | .oneOf path literals => exact truth_oneOf document supported path literals
  | .compare path comparison literal =>
      rw [Regular] at regular
      exact truth_guarded document supported path comparison regular

theorem forall_truth_toPredicates (supported : dialect.SupportedBy engine)
    (conditions : List Condition) (regular : AllRegular conditions) :
    (∀ part ∈ Predicate.expressions dialect (toPredicates conditions),
        part.truth (engine document) = some true) ↔
      allHold document conditions = true := by
  match conditions with
  | [] => simp [toPredicates, Predicate.expressions, allHold]
  | part :: rest =>
      rw [AllRegular] at regular
      rw [toPredicates, Predicate.expressions, List.forall_mem_cons,
        truth_toPredicate supported part regular.1,
        forall_truth_toPredicates supported rest regular.2, allHold, Bool.and_eq_true]

theorem exists_truth_toPredicates (supported : dialect.SupportedBy engine)
    (conditions : List Condition) (regular : AllRegular conditions) :
    (∃ part ∈ Predicate.expressions dialect (toPredicates conditions),
        part.truth (engine document) = some true) ↔
      anyHolds document conditions = true := by
  match conditions with
  | [] => simp [toPredicates, Predicate.expressions, anyHolds]
  | part :: rest =>
      rw [AllRegular] at regular
      rw [toPredicates, Predicate.expressions, List.exists_mem_cons_iff,
        truth_toPredicate supported part regular.1,
        exists_truth_toPredicates supported rest regular.2, anyHolds, Bool.or_eq_true]

end

/-! ## Drafts -/

/-- A condition that was read from a match document can be bound to any draft.
Its text is read as an expression, whatever stands in front of it in the
statement and whatever is bound later, and the expression is true of exactly
the rows whose documents satisfy the condition. -/
theorem bindCondition_pushdown (dialect : JsonDialect) (sql : String) (parameters : List Value)
    {filter : Document} {condition : Condition} (read : ofDocument filter = .ok condition) :
    ∃ text next, Draft.bindCondition ⟨.json dialect, sql, parameters⟩ condition =
        .ok (text, next) ∧
      (∀ later, Expression.read? (.json dialect) (next.parameters ++ later) parameters.length text =
        some (condition.toPredicate.expression dialect)) ∧
      ∀ engine, dialect.SupportedBy engine → ∀ document,
        (condition.toPredicate.expression dialect).truth (engine document) = some true ↔
          condition.holds document = true := by
  have regular := regular_of_ofDocument read
  have printable := printable_toPredicate condition regular
  rcases Predicate.exists_fragment dialect condition.toPredicate printable with
    ⟨fragment, printed, reads⟩
  refine ⟨String.ofList (Fragment.chars (.json dialect) parameters.length fragment),
    ⟨.json dialect, sql, parameters ++ fragment.parameters⟩, ?_, ?_, ?_⟩
  · rw [Draft.bindCondition, printed]
    rfl
  · exact fun later => reads.read?_eq parameters later
  · intro engine supported document
    exact truth_toPredicate document supported condition regular

/-- A row without an age is chosen where the age may not be three, though the
comparison itself is unknown there. -/
theorem bindCondition_pushdown_of_missing :
    ∃ condition text next, Draft.bindCondition ⟨.json .sqlite, "WHERE ", []⟩ condition =
        .ok (text, next) ∧
      ofDocument ⟨[("age", .object ⟨[("$ne", .number (.integer 3 (by decide)))]⟩)]⟩ =
        .ok condition ∧
      Expression.read? (.json .sqlite) next.parameters 0 text =
        some (condition.toPredicate.expression .sqlite) ∧
      (condition.toPredicate.expression .sqlite).truth (Sqlite.engine ∅) = some true := by
  have accepted : MatchDocument.accepts
      [("age", .object ⟨[("$ne", .number (.integer 3 (by decide)))]⟩)] = true := rfl
  rcases (ofDocument_verdict ⟨_⟩).exists_ok_iff.2 accepted with ⟨condition, read⟩
  rcases bindCondition_pushdown .sqlite "WHERE " [] read with ⟨text, next, bound, found, chosen⟩
  refine ⟨condition, text, next, bound, read, ?_, ?_⟩
  · simpa using found []
  · rw [chosen Sqlite.engine Sqlite.supportedBy_engine,
      ((ofDocument_verdict _).of_ok read).holds_eq]
    rfl

end DocTable.Sql
