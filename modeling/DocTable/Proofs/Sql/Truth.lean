import DocTable.Proofs.Sql.Reading
import DocTable.Sql.Evaluation

/-!
# Truth values of expressions

Connectives are evaluated in three-valued logic. The engine decides the tests
that look into a document, and of these only what the library relies on is
assumed: a comparison with a value of another type may come out in any way,
and where a type is tested the false and the unknown need not be told apart.
-/

namespace DocTable.Sql

namespace Expression

mutual

/-- The truth value of an expression, given those that an engine finds for the
tests that look into the document. -/
def truth (engine : Expression → Truth) : Expression → Truth
  | .falsity => some false
  | .compare comparison (.number left) (.number right) =>
      some (comparison.holds (Ord.compare left right))
  | .call function arguments =>
      if function = "COALESCE" then (truths engine arguments).findSome? id
      else engine (.call function arguments)
  | .among operand list => Truth.any (list.map fun element => engine (.compare .eq operand element))
  | .negation operand => (truth engine operand).not
  | .both left right => (truth engine left).and (truth engine right)
  | .either left right => (truth engine left).or (truth engine right)
  | test => engine test

/-- The truth values of expressions. -/
def truths (engine : Expression → Truth) : List Expression → List Truth
  | [] => []
  | first :: rest => truth engine first :: truths engine rest

end

end Expression

namespace Truth

variable {left right : Truth}

theorem and_eq_true_iff : left.and right = some true ↔ left = some true ∧ right = some true := by
  rcases left with _ | _ | _ <;> rcases right with _ | _ | _ <;> decide

theorem or_eq_true_iff : left.or right = some true ↔ left = some true ∨ right = some true := by
  rcases left with _ | _ | _ <;> rcases right with _ | _ | _ <;> decide

theorem any_eq_true_iff {values : List Truth} :
    Truth.any values = some true ↔ some true ∈ values := by
  induction values with
  | nil => simp [Truth.any]
  | cons first rest ih => rw [Truth.any, or_eq_true_iff, ih, List.mem_cons, eq_comm]

end Truth

namespace Expression

variable {engine : Expression → Truth} {first : Expression} {rest : List Expression}

theorem truth_joined_both :
    (joined .both (first :: rest)).truth engine = some true ↔
      ∀ part ∈ first :: rest, part.truth engine = some true := by
  simp only [joined]
  induction rest generalizing first with
  | nil => simp
  | cons next rest ih =>
      rw [List.foldl_cons, ih, List.forall_mem_cons, truth, Truth.and_eq_true_iff, and_assoc]
      simp

theorem truth_joined_either :
    (joined .either (first :: rest)).truth engine = some true ↔
      ∃ part ∈ first :: rest, part.truth engine = some true := by
  simp only [joined]
  induction rest generalizing first with
  | nil => simp
  | cons next rest ih =>
      rw [List.foldl_cons, ih, List.exists_mem_cons_iff, truth, Truth.or_eq_true_iff, or_assoc]
      simp

/-- A negation that takes the unknown for false is true unless its operand is. -/
theorem truth_notTrue (operand : Expression) :
    (negation (.call "COALESCE" [operand, .falsity])).truth engine = some true ↔
      ¬operand.truth engine = some true := by
  simp only [truth, truths, if_true]
  rcases operand.truth engine with _ | _ | _ <;> decide

end Expression

/-- An engine, as far as filters depend on it: the truth values of the tests
that look into a document. -/
abbrev Engine : Type := Document → Expression → Truth

/-- What an engine has to say of the tests of a path. A comparison with a
literal counts only if the value at the path has the literal's type. -/
structure JsonDialect.SupportedBy (dialect : JsonDialect) (engine : Engine) : Prop where
  existence (document : Document) (path : FieldPath) :
    (dialect.existenceTested path).truth (engine document) = some (document.lookup? path).isSome
  null (document : Document) (path : FieldPath) :
    (dialect.nullTested path).truth (engine document) =
      some (Condition.isNullOrMissing (document.lookup? path))
  kind (document : Document) (path : FieldPath) (kind : ScalarKind) :
    (dialect.kindTested path kind).truth (engine document) = some true ↔
      (document.lookup? path).bind Predicate.kindOf? = some kind
  order (document : Document) (path : FieldPath) (comparison : Comparison) (literal : Scalar)
    (order : Ordering) :
    (document.lookup? path).bind (Scalar.compare? · literal) = some order →
      engine document (.compare comparison (dialect.extracted path) (dialect.literal literal)) =
        some (comparison.holds order)

end DocTable.Sql
