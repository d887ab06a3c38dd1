import DocTable.Sql.Predicate

/-!
# The value of a predicate

SQL's logic has three truth values: true, false and unknown, which a comparison with a missing
value yields. A row is chosen when a predicate is true of it.
-/

namespace DocTable.Sql

/-- A truth value of SQL; `none` is the unknown one. -/
abbrev Truth : Type := Option Bool

namespace Truth

/-- The negation; the unknown stays unknown. -/
def not (value : Truth) : Truth := value.map (!·)

/-- The conjunction; false wins over the unknown. -/
def and : Truth → Truth → Truth
  | some false, _ => some false
  | _, some false => some false
  | some true, some true => some true
  | _, _ => none

/-- The disjunction; true wins over the unknown. -/
def or : Truth → Truth → Truth
  | some true, _ => some true
  | _, some true => some true
  | some false, some false => some false
  | _, _ => none

/-- The disjunction of a list of truth values. -/
def any : List Truth → Truth
  | [] => some false
  | first :: rest => or first (any rest)

end Truth

/-- What an engine says of the comparison of a value with a literal of another type. -/
abbrev MixedComparison : Type := Json → Comparison → Scalar → Truth

namespace Predicate

/-- The type of a value among those of the literals; null, arrays and objects have none. -/
def kindOf? (value : Json) : Option ScalarKind := (Scalar.ofJson? value).bind Scalar.kind?

/-- The comparison of the value at a path, which may be missing, with a literal. -/
def compared (mixed : MixedComparison) (comparison : Comparison) (literal : Scalar) :
    Option Json → Truth
  | none => none
  | some value =>
    match Scalar.compare? value literal with
    | some order => some (comparison.holds order)
    | none => mixed value comparison literal

mutual

/-- The truth value of a predicate on the row that holds a document. -/
def eval (mixed : MixedComparison) (document : Document) : Predicate → Truth
  | .constant value => some value
  | .all parts => evalAll mixed document parts
  | .any parts => evalAny mixed document parts
  | .negation part => (eval mixed document part).not
  | .notTrue part => some (!(eval mixed document part).getD false)
  | .present path => some (document.lookup? path).isSome
  | .nullOrMissing path => some (Condition.isNullOrMissing (document.lookup? path))
  | .ofKind path kind => (document.lookup? path).map fun value => kindOf? value == some kind
  | .compare path comparison literal =>
    compared mixed comparison literal (document.lookup? path)
  | .among path literals =>
    Truth.any (literals.map fun literal => compared mixed .eq literal (document.lookup? path))

/-- The conjunction of the truth values of predicates. -/
def evalAll (mixed : MixedComparison) (document : Document) : List Predicate → Truth
  | [] => some true
  | part :: rest => (eval mixed document part).and (evalAll mixed document rest)

/-- The disjunction of the truth values of predicates. -/
def evalAny (mixed : MixedComparison) (document : Document) : List Predicate → Truth
  | [] => some false
  | part :: rest => (eval mixed document part).or (evalAny mixed document rest)

end

/-- Whether a predicate chooses the row that holds a document, in an engine that leaves the
comparison of different types unknown. -/
def chooses (predicate : Predicate) (document : Document) : Bool :=
  predicate.eval (fun _ _ _ => none) document == some true

end Predicate

end DocTable.Sql
