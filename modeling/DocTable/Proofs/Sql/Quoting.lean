import DocTable.Proofs.FieldPath
import DocTable.Proofs.Sql.Binding
import DocTable.Proofs.Sql.Sqlite

/-!
# Quoting loses nothing

A quoted name is read back whole in front of any text that does not begin with its
mark, and the string constants in the text of an extraction give back the segments of
the path. So the text of no path is that of another one.
-/

namespace DocTable.Sql

/-- What a token says, if it is a string constant. -/
def Token.constant? : Token → Option String
  | .quotation .constant text => some text
  | _ => none

/-- The string constants in a text. A text with a backslash in one of them does not split into
tokens and has none. -/
def constants? (dialect : Dialect) (text : String) : Option (List String) :=
  (Token.scan? dialect text.toList).map fun tokens => tokens.filterMap Token.constant?

/-- Two marks inside a constant are one, and do not end it. -/
example : constants? (.json .postgres) "(\"document\" -> 'it''s' -> 'a')" = some ["it's", "a"] := by
  rfl

namespace JsonDialect

/-- The constants that name a path: one for the notation of the whole path, or one for each of
its segments. -/
def pathConstants (dialect : JsonDialect) (path : FieldPath) : List String :=
  match dialect with
  | .sqlite | .mysql => [pathNotation path]
  | .postgres => path.segments

/-- The segments that constants name. -/
def segmentsOf (dialect : JsonDialect) (constants : List String) : List String :=
  match dialect with
  | .sqlite | .mysql => constants.flatMap Sqlite.namesOf
  | .postgres => constants

variable (dialect : JsonDialect) (column : String) (path : FieldPath)

theorem segmentsOf_pathConstants :
    dialect.segmentsOf (dialect.pathConstants path) = path.segments := by
  cases dialect with
  | sqlite | mysql =>
      rw [segmentsOf, pathConstants, List.flatMap_singleton, Sqlite.namesOf_pathNotation]
  | postgres => rfl

theorem backslash_not_mem_pathConstants {constant : String}
    (member : constant ∈ dialect.pathConstants path) : '\\' ∉ constant.toList := by
  cases dialect with
  | sqlite | mysql =>
      rw [List.mem_singleton.1 member]
      exact backslash_not_mem_pathNotation path
  | postgres => exact backslash_not_mem_segment path member

theorem filterMap_extractionTokens :
    (dialect.extractionTokens column path).filterMap Token.constant? =
      dialect.pathConstants path := by
  cases dialect with
  | sqlite | mysql => rfl
  | postgres =>
      have keys : (path.segments.flatMap fun key : String =>
          [Token.symbol "->", .quotation .constant key]).filterMap Token.constant? =
          path.segments := by
        rw [List.filterMap_flatMap]
        exact List.flatMap_singleton' _
      change (path.segments.flatMap _ ++ [Token.closeParenthesis]).filterMap Token.constant? = _
      rw [List.filterMap_append, keys]
      exact List.append_nil _

/-- The constants in the text of an extraction are those of its path. -/
theorem constants?_extraction :
    constants? (.json dialect) ((dialect.extraction column path).text (.json dialect)) =
      some (dialect.pathConstants path) := by
  have unbound := (dialect.binds_extraction column path).parameters_eq
  rw [constants?, (scans_extraction path dialect column).scan?_text unbound, Option.map_some,
    filterMap_extractionTokens]

theorem segments_eq_of_extraction {other : FieldPath}
    (same : (dialect.extraction column path).text (.json dialect) =
      (dialect.extraction column other).text (.json dialect)) :
    path.segments = other.segments := by
  have constants := congrArg (constants? (.json dialect)) same
  rw [constants?_extraction, constants?_extraction, Option.some.injEq] at constants
  rw [← segmentsOf_pathConstants dialect path, constants, segmentsOf_pathConstants]

end JsonDialect

/-- Names and paths survive quoting. A quoted name is read back in front of any text that does not
go on with its mark. A path that has been read is the text it was read from, the constants
in the text of its extraction are its notation or its segments, and they hold the segments;
and the extractions of two paths have the same text only if the paths were the same. -/
theorem quoting_lossless :
    (∀ (dialect : Dialect) (name : String) (index : Nat) (rest : List Char),
      rest.head? ≠ some dialect.identifierMark →
        readQuoted? dialect.identifierMark
          ((Piece.identifier name).chars dialect index ++ rest) = some (name.toList, rest)) ∧
    (∀ text path, FieldPath.parse text = .ok path →
      ".".intercalate path.segments = text ∧
        ∀ (dialect : JsonDialect) (column : String),
          constants? (.json dialect) ((dialect.extraction column path).text (.json dialect)) =
            some (dialect.pathConstants path) ∧
          (∀ constant ∈ dialect.pathConstants path, '\\' ∉ constant.toList) ∧
          dialect.segmentsOf (dialect.pathConstants path) = path.segments) ∧
    ∀ (dialect : Dialect) (text other : String) (path otherPath : FieldPath)
      (fragment otherFragment : Fragment),
      FieldPath.parse text = .ok path → FieldPath.parse other = .ok otherPath →
        dialect.extraction path = .ok fragment → dialect.extraction otherPath = .ok otherFragment →
          fragment.text dialect = otherFragment.text dialect → text = other := by
  refine ⟨?_, ?_, ?_⟩
  · intro dialect name index rest ends
    exact readQuoted?_quoted _ _ _ ends
  · intro text path read
    refine ⟨FieldPath.intercalate_segments read, fun dialect column => ?_⟩
    exact ⟨dialect.constants?_extraction column path,
      fun constant member => dialect.backslash_not_mem_pathConstants path member,
      dialect.segmentsOf_pathConstants path⟩
  · intro dialect text other path otherPath fragment otherFragment read readOther written
      writtenOther same
    cases dialect with
    | text => cases written
    | json dialect =>
        cases written
        cases writtenOther
        have segments := dialect.segments_eq_of_extraction documentColumn path same
        rw [← FieldPath.intercalate_segments read, segments,
          FieldPath.intercalate_segments readOther]

/-- A name with a mark at its end and a path with an apostrophe in it. -/
theorem quoting_lossless_of_marks :
    readQuoted? '"' ((Piece.identifier "a\"").chars (.json .sqlite) 1 ++ " x".toList) =
        some ("a\"".toList, " x".toList) ∧
      ∃ path, FieldPath.parse "it's.x" = .ok path ∧
        constants? (.json .sqlite)
          ((JsonDialect.sqlite.extraction documentColumn path).text (.json .sqlite)) =
            some ["$.\"it's\".\"x\""] ∧
        ∀ other otherPath, FieldPath.parse other = .ok otherPath →
          (JsonDialect.sqlite.extraction documentColumn otherPath).text (.json .sqlite) =
            (JsonDialect.sqlite.extraction documentColumn path).text (.json .sqlite) →
          other = "it's.x" := by
  rcases quoting_lossless with ⟨names, paths, distinct⟩
  have ends : " x".toList.head? ≠ some '"' := by decide
  refine ⟨names (.json .sqlite) "a\"" 1 _ ends, ?_⟩
  cases read : FieldPath.parse "it's.x" with
  | error error => cases read
  | ok path =>
      have constants := ((paths _ path read).2 .sqlite documentColumn).1
      have segments : path.segments = ["it's", "x"] := by
        cases read
        rfl
      refine ⟨path, rfl, ?_, ?_⟩
      · rw [constants, JsonDialect.pathConstants, JsonDialect.pathNotation, segments]
        rfl
      · intro other otherPath readOther same
        exact distinct (.json .sqlite) _ _ _ _ _ _ readOther read rfl rfl same

end DocTable.Sql
