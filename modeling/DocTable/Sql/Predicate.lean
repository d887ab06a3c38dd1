import DocTable.Sql.PathExpression

/-!
# Predicates

The boolean expressions that conditions become in SQL. A comparison of the value at a path stands
behind a test of its type, so that engines which would convert one of the operands agree with the
others; and a negation takes an unknown truth value for false, as it does in process.
-/

namespace DocTable

namespace Sql

/-- A boolean expression over the stored document. -/
inductive Predicate where
  /-- A truth value. -/
  | constant (value : Bool)
  /-- A conjunction. -/
  | all (parts : List Predicate)
  /-- A disjunction. -/
  | any (parts : List Predicate)
  /-- The negation. -/
  | negation (part : Predicate)
  /-- The negation of a part whose unknown value counts as false. -/
  | notTrue (part : Predicate)
  /-- There is a value at the path. -/
  | present (path : FieldPath)
  /-- The value at the path is missing or null. -/
  | nullOrMissing (path : FieldPath)
  /-- The value at the path has the type of the literals of some kind. -/
  | ofKind (path : FieldPath) (kind : ScalarKind)
  /-- The value at the path stands in relation to the literal. -/
  | compare (path : FieldPath) (comparison : Comparison) (literal : Scalar)
  /-- The value at the path is among the literals. -/
  | among (path : FieldPath) (literals : List Scalar)
deriving Repr

namespace Predicate

mutual

/-- The text of a predicate in a dialect. -/
def fragment (dialect : Dialect) : Predicate → Except Error Fragment
  | .constant true => pure [.code "1 = 1"]
  | .constant false => pure [.code "1 = 0"]
  | .all parts => do
    return Fragment.parenthesized (Fragment.separated " AND " (← fragments dialect parts))
  | .any parts => do
    return Fragment.parenthesized (Fragment.separated " OR " (← fragments dialect parts))
  | .negation part => do
    return .code "NOT " :: Fragment.parenthesized (← fragment dialect part)
  | .notTrue part => do
    return .code "NOT " :: Fragment.call "COALESCE" [← fragment dialect part, [.code "FALSE"]]
  | .present path => dialect.test .existence (·.existenceTest documentColumn path)
  | .nullOrMissing path => dialect.test .nullMatch (·.nullTest documentColumn path)
  | .ofKind path kind => do
    let _ ← dialect.extraction path
    dialect.test .typeCheck (·.kindTest documentColumn path kind)
  | .compare path comparison literal => do
    let value ← dialect.extraction path
    if literal = .null then throw (.compilation (.nullComparison path.text))
    return value ++ [.code s!" {comparison.symbol} ", dialect.literal literal]
  | .among path literals => do
    let value ← dialect.extraction path
    let parameters : List Fragment := literals.map ([dialect.literal ·])
    return value ++ .code " IN " :: Fragment.parenthesized (Fragment.separated ", " parameters)

/-- The texts of predicates in a dialect. -/
def fragments (dialect : Dialect) : List Predicate → Except Error (List Fragment)
  | [] => pure []
  | part :: rest => do
    let first ← fragment dialect part
    return first :: (← fragments dialect rest)

end

/-- The comparison of the value at a path with a literal of the same type. -/
def guarded (path : FieldPath) (comparison : Comparison) (literal : Scalar) : Predicate :=
  match literal.kind? with
  | some kind => .all [.ofKind path kind, .compare path comparison literal]
  | none => .compare path comparison literal

/-- The kinds of literals in order of first appearance. -/
def kindsOf (literals : List Scalar) : List ScalarKind :=
  (literals.filterMap Scalar.kind?).eraseDups

/-- The test that the value at a path is one of some literals, which are grouped by kind. -/
def oneOf (path : FieldPath) (literals : List Scalar) : Predicate :=
  if literals.isEmpty then .constant false
  else
    let null := if literals.contains .null then [nullOrMissing path] else []
    let groups := (kindsOf literals).map fun kind =>
      .all [.ofKind path kind, .among path (literals.filter (·.kind? == some kind))]
    .any (null ++ groups)

end Predicate

end Sql

namespace Condition

mutual

/-- The predicate that holds exactly where the condition does. -/
def toPredicate : Condition → Sql.Predicate
  | .always => .constant true
  | .all [] => .constant true
  | .all (part :: rest) => .all (part.toPredicate :: toPredicates rest)
  | .any [] => .constant false
  | .any (part :: rest) => .any (part.toPredicate :: toPredicates rest)
  | .not part => .notTrue part.toPredicate
  | .exists path true => .present path
  | .exists path false => .negation (.present path)
  | .isNull path => .nullOrMissing path
  | .oneOf path literals => .oneOf path literals
  | .compare path comparison literal => .guarded path comparison literal

/-- The predicates of conditions. -/
def toPredicates : List Condition → List Sql.Predicate
  | [] => []
  | part :: rest => part.toPredicate :: toPredicates rest

end

end Condition

end DocTable
