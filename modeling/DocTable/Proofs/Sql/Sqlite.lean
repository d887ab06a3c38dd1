import DocTable.Proofs.Sql.Truth
import DocTable.Proofs.Text.Parts

/-!
# The tests of a path in SQLite

What `json_extract` and `json_type` find, as far as filters ask for it: the
path is read back from its notation, the types have their words, and a literal
is compared as the value that is bound for it. This engine says of every test
what is expected.
-/

namespace DocTable.Sql.Sqlite

/-- Every second element of a list. -/
def everySecond {α : Type} : List α → List α
  | _ :: second :: rest => second :: everySecond rest
  | _ => []

/-- The names in the notation of a path, each between two marks. -/
def namesOf (path : String) : List String :=
  (everySecond (splitAt '"' path.toList)).map String.ofList

/-- The value that a document has at a path. -/
def valueAt (document : Document) (path : String) : Option Json :=
  (Json.object document).lookup? (namesOf path)

/-- The word for the type of a value. -/
def typeWord : Json → String
  | .null => "null"
  | .bool true => "true"
  | .bool false => "false"
  | .number (.integer ..) => "integer"
  | .number (.double _) => "real"
  | .string _ => "text"
  | .array _ => "array"
  | .object _ => "object"

/-- The order of a value and a bound one. -/
def order? : Json → Value → Option Ordering
  | .number value, .integer bound => (Number.ofInt? bound).map value.compare
  | .number value, .real bound => some (value.toDouble.compare bound)
  | .string value, .text bound => some (Ord.compare value bound)
  | .bool value, .integer bound => some (Ord.compare value (bound == 1))
  | _, _ => none

/-- The truth values of the tests that look into a document. -/
def engine : Engine
  | document, .isNull (.call "json_extract" [_, .constant path]) expected =>
      some (Condition.isNullOrMissing (valueAt document path) == expected)
  | document, .isNull (.call "json_type" [_, .constant path]) expected =>
      some ((valueAt document path).isNone == expected)
  | document, .compare comparison (.call "json_type" [_, .constant path]) (.constant word) =>
      (valueAt document path).map fun value => comparison.holds (Ord.compare (typeWord value) word)
  | document, .compare comparison (.call "json_extract" [_, .constant path]) (.parameter bound) =>
      ((valueAt document path).bind (order? · bound)).map comparison.holds
  | _, _ => none

/-- Between the names stand a mark, a dot and a mark, and in front of the first
one any text without marks. -/
theorem everySecond_splitAt {names : List String} {first : List Char} (plain : '"' ∉ first)
    (sound : ∀ name ∈ names, '"' ∉ name.toList) :
    everySecond (splitAt '"' (first ++ names.flatMap fun name =>
        '.' :: '"' :: (name.toList ++ ['"']))) = names.map String.toList := by
  induction names generalizing first with
  | nil => simp [splitAt_of_not_mem plain, everySecond]
  | cons name names ih =>
      have opening : '"' ∉ first ++ ['.'] := by simp [plain]
      have later := @ih [] (by simp) fun other member => sound other (by simp [member])
      have split : first ++ (name :: names).flatMap (fun name =>
            '.' :: '"' :: (name.toList ++ ['"'])) =
          (first ++ ['.']) ++ '"' :: (name.toList ++ '"' :: names.flatMap fun name =>
            '.' :: '"' :: (name.toList ++ ['"'])) := by
        simp
      rw [split, splitAt_append_cons _ opening, splitAt_append_cons _ (sound name (by simp)),
        everySecond, List.map_cons]
      exact congrArg _ later

theorem namesOf_pathNotation (path : FieldPath) :
    namesOf (JsonDialect.pathNotation path) = path.segments := by
  have plain (name : String) (member : name ∈ path.segments) : '"' ∉ name.toList := by
    intro inName
    have quotable := List.all_eq_true.1 (path.quotable name member).2 _ inName
    exact absurd quotable (by decide)
  have names := @everySecond_splitAt path.segments ['$'] (by decide) plain
  rw [List.singleton_append] at names
  rw [namesOf, JsonDialect.pathNotation, String.toList_ofList, names]
  simp

theorem valueAt_pathNotation (document : Document) (path : FieldPath) :
    valueAt document (JsonDialect.pathNotation path) = document.lookup? path := by
  rw [valueAt, namesOf_pathNotation, Document.lookup?]

theorem order?_literalValue {value : Json} {literal : Scalar} {order : Ordering}
    (compared : Scalar.compare? value literal = some order) :
    order? value (Dialect.literalValue (.json .sqlite) literal) = some order := by
  cases literal with
  | null => cases value <;> cases compared
  | bool expected =>
      cases value with
      | bool own => cases expected <;> exact compared
      | _ => cases compared
  | string text =>
      cases value with
      | string own => exact compared
      | _ => cases compared
  | number number =>
      cases value with
      | number own =>
          have bound : Dialect.literalValue (.json .sqlite) (.number number) =
              Value.ofNumber number := rfl
          rw [bound, Value.ofNumber]
          cases signed : number.signed? with
          | none =>
              have real : Number.compare own number = own.toDouble.compare number.toDouble := by
                rw [Number.compare, signed]
                cases own.signed? <;> rfl
              rw [← compared]
              exact congrArg some real.symm
          | some integer =>
              cases number with
              | double _ => cases signed
              | integer exact inRange =>
                  simp only [Number.signed?] at signed
                  split at signed
                  · cases signed
                    rw [order?, Number.ofInt?, dif_pos inRange]
                    exact compared
                  · cases signed
      | _ => cases compared

theorem typeWord_mem_typeWords (value : Json) (kind : ScalarKind) :
    typeWord value ∈ JsonDialect.typeWords .sqlite kind ↔
      Predicate.kindOf? value = some kind := by
  cases kind <;> rcases value with _ | (_ | _) | (_ | _) | _ | _ | _ <;>
    simp [typeWord, JsonDialect.typeWords, Predicate.kindOf?, Scalar.ofJson?, Scalar.kind?]

theorem supportedBy_engine : JsonDialect.sqlite.SupportedBy engine := by
  constructor
  case existence =>
    intro document path
    have tested : (JsonDialect.sqlite.existenceTested path).truth (engine document) =
        some ((valueAt document (JsonDialect.pathNotation path)).isNone == false) := rfl
    rw [tested, valueAt_pathNotation]
    cases document.lookup? path <;> rfl
  case null =>
    intro document path
    have tested : (JsonDialect.sqlite.nullTested path).truth (engine document) =
        some (Condition.isNullOrMissing (valueAt document (JsonDialect.pathNotation path)) ==
          true) := rfl
    rw [tested, valueAt_pathNotation]
    cases Condition.isNullOrMissing (document.lookup? path) <;> rfl
  case kind =>
    intro document path kind
    have tested : (JsonDialect.sqlite.kindTested path kind).truth (engine document) =
        Truth.any ((JsonDialect.typeWords .sqlite kind).map fun word =>
          (valueAt document (JsonDialect.pathNotation path)).map fun value =>
            Comparison.holds .eq (Ord.compare (typeWord value) word)) := by
      cases kind <;> rfl
    rw [tested, Truth.any_eq_true_iff, List.mem_map, valueAt_pathNotation]
    cases document.lookup? path with
    | none => simp
    | some value =>
        rw [Option.bind_some, ← typeWord_mem_typeWords]
        simp [Comparison.holds]
  case order =>
    intro document path comparison literal order compared
    have tested : engine document (.compare comparison (JsonDialect.sqlite.extracted path)
          (JsonDialect.sqlite.literal literal)) =
        ((valueAt document (JsonDialect.pathNotation path)).bind fun value =>
          order? value (Dialect.literalValue (.json .sqlite) literal)).map comparison.holds := rfl
    rw [tested, valueAt_pathNotation]
    cases found : document.lookup? path with
    | none => simp [found] at compared
    | some value =>
        rw [found, Option.bind_some] at compared
        rw [Option.bind_some, order?_literalValue compared, Option.map_some]

end DocTable.Sql.Sqlite
