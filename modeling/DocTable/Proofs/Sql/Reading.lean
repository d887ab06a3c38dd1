import DocTable.Proofs.Sql.Rendering

/-!
# The expressions of predicates

The expression that each predicate is meant to be, and the proof that an
engine reads it in the text of the predicate. The tests of a path differ from
dialect to dialect; above them a predicate is read in the same way by all.
-/

namespace DocTable.Sql

namespace JsonDialect

open Fragment

/-- A path in the notation of the JSON functions. -/
def pathNotation (path : FieldPath) : String :=
  String.ofList ('$' :: path.segments.flatMap fun segment =>
    '.' :: '"' :: (segment.toList ++ ['"']))

/-- The column of documents and a path in it, as functions take them. -/
def pathArguments (path : FieldPath) : List Expression :=
  [.column documentColumn, .constant (pathNotation path)]

/-- The expression of the value at a path. -/
def extracted (dialect : JsonDialect) (path : FieldPath) : Expression :=
  match dialect with
  | .sqlite => .call "json_extract" (pathArguments path)
  | .mysql => .call "JSON_EXTRACT" (pathArguments path)
  | .postgres => path.segments.foldl (fun value key => .member value (.constant key))
      (.column documentColumn)

/-- The expression of the word for the type of the value at a path. -/
def typeWord (dialect : JsonDialect) (path : FieldPath) : Expression :=
  match dialect with
  | .sqlite => .call "json_type" (pathArguments path)
  | .mysql => .call "JSON_TYPE" [dialect.extracted path]
  | .postgres => .call "jsonb_typeof" [dialect.extracted path]

/-- The expression of the test that the value at a path has the type of the
literals of some kind. -/
def kindTested (dialect : JsonDialect) (path : FieldPath) (kind : ScalarKind) : Expression :=
  let words := dialect.typeWords kind
  match dialect with
  | .postgres => .compare .eq (dialect.typeWord path) (.constant (words.headD ""))
  | _ => .among (dialect.typeWord path) (words.map .constant)

/-- The expression of the test that the value at a path is missing or null. -/
def nullTested (dialect : JsonDialect) (path : FieldPath) : Expression :=
  match dialect with
  | .sqlite => .isNull (dialect.extracted path) true
  | .mysql => absentAs "NULL"
  | .postgres => absentAs "null"
where
  /-- A comparison of the type's word in which a missing value stands for null. -/
  absentAs (word : String) : Expression :=
    .compare .eq (.call "COALESCE" [dialect.typeWord path, .constant word]) (.constant word)

/-- The expression of the test that there is a value at a path. -/
def existenceTested (dialect : JsonDialect) (path : FieldPath) : Expression :=
  match dialect with
  | .sqlite => .isNull (dialect.typeWord path) false
  | .mysql => .call "JSON_CONTAINS_PATH"
      [.column documentColumn, .constant "one", .constant (pathNotation path)]
  | .postgres => .isNull (dialect.extracted path) false

variable {dialect : Dialect} (path : FieldPath)

/-- No dialect takes a character of a segment for the beginning of an escape. -/
theorem backslash_not_mem_segment {segment : String} (member : segment ∈ path.segments) :
    '\\' ∉ segment.toList := by
  intro inSegment
  have quotable := List.all_eq_true.1 (path.quotable segment member).2 _ inSegment
  exact absurd quotable (by decide)

theorem backslash_not_mem_pathNotation : '\\' ∉ (pathNotation path).toList := by
  intro member
  simp only [pathNotation, String.toList_ofList, List.mem_cons, List.mem_flatMap, List.mem_append,
    List.not_mem_nil, or_false] at member
  rcases member with isDollar | ⟨segment, inPath, isDot | isMark | inSegment | isMark⟩
  · exact absurd isDollar (by decide)
  · exact absurd isDot (by decide)
  · exact absurd isMark (by decide)
  · exact backslash_not_mem_segment path inPath inSegment
  · exact absurd isMark (by decide)

theorem readsTest_column : ReadsTest dialect [.identifier documentColumn]
    (.column documentColumn) :=
  (ReadsOperand.identifier documentColumn).readsTest

theorem readsTest_jsonPath : ReadsTest dialect [jsonPath path] (.constant (pathNotation path)) :=
  (ReadsOperand.constant (backslash_not_mem_pathNotation path)).readsTest

theorem readsTest_pathArguments :
    List.Forall₂ (ReadsTest dialect) [[.identifier documentColumn], [jsonPath path]]
      (pathArguments path) :=
  .cons readsTest_column (.cons (readsTest_jsonPath path) .nil)

theorem scans_members {keys : List String} {first : Fragment} {tokens : List Token}
    (head : Scans dialect first tokens) (plain : ∀ key ∈ keys, '\\' ∉ key.toList) :
    Scans dialect (first ++ keys.flatMap fun key => [.code " -> ", .constant key])
      (tokens ++ keys.flatMap fun key => [.symbol "->", .quotation .constant key]) := by
  induction keys generalizing first tokens with
  | nil => simpa using head
  | cons key keys ih =>
      have constant : Scans dialect [.constant key] [.quotation .constant key] :=
        Scans.constant (plain key (by simp))
      have arrow : Token.run? dialect .between " -> ".toList = some ([.symbol "->"], .between) :=
        rfl
      have next := head.append_code rfl (Scans.code_cons arrow rfl constant)
      have later := ih next fun other member => plain other (by simp [member])
      simpa [List.append_assoc] using later

/-- The tokens of the value at a path in a column. -/
def extractionTokens (dialect : JsonDialect) (column : String) (path : FieldPath) : List Token :=
  match dialect with
  | .sqlite => callTokens "json_extract"
  | .mysql => callTokens "JSON_EXTRACT"
  | .postgres => .openParenthesis :: ([.quotation .name column] ++ path.segments.flatMap
      (fun key => [.symbol "->", .quotation .constant key]) ++ [.closeParenthesis])
where
  /-- A function of the column and the path. -/
  callTokens (function : String) : List Token :=
    [.word function, .openParenthesis, .quotation .name column, .comma,
      .quotation .constant (pathNotation path), .closeParenthesis]

theorem scans_extraction (dialect : JsonDialect) (column : String) :
    Scans (.json dialect) (dialect.extraction column path)
      (dialect.extractionTokens column path) := by
  have arguments : List.Forall₂ (Scans (.json dialect)) [[.identifier column], [jsonPath path]]
      [[.quotation .name column], [.quotation .constant (pathNotation path)]] :=
    .cons (Scans.identifier column)
      (.cons (Scans.constant (backslash_not_mem_pathNotation path)) .nil)
  cases dialect with
  | sqlite => exact Scans.call rfl arguments (List.cons_ne_nil _ _)
  | mysql => exact Scans.call rfl arguments (List.cons_ne_nil _ _)
  | postgres =>
      have head : Scans (.json .postgres) [.identifier column] [.quotation .name column] :=
        Scans.identifier column
      have members := scans_members head fun segment member =>
        backslash_not_mem_segment path member
      exact members.parenthesized

theorem readsOperand_extraction (dialect : JsonDialect) :
    ReadsOperand (.json dialect) (dialect.extraction documentColumn path)
      (dialect.extracted path) := by
  cases dialect with
  | sqlite => exact ReadsOperand.call rfl (by decide) (readsTest_pathArguments path) (by simp)
  | mysql => exact ReadsOperand.call rfl (by decide) (readsTest_pathArguments path) (by simp)
  | postgres =>
      apply ReadsOperand.group
      have column : Expression.IsOperand [.quotation .name documentColumn]
          (.column documentColumn) :=
        (Expression.isOperand_quotation documentColumn).1
      refine ⟨_, scans_members (Scans.identifier documentColumn) ?_,
        Expression.isTest_members column path.segments⟩
      exact fun segment member => backslash_not_mem_segment path member

theorem readsOperand_typeOf (dialect : JsonDialect) :
    ReadsOperand (.json dialect) (dialect.typeOf documentColumn path) (dialect.typeWord path) := by
  have extraction := readsOperand_extraction path dialect
  cases dialect with
  | sqlite => exact ReadsOperand.call rfl (by decide) (readsTest_pathArguments path) (by simp)
  | mysql => exact ReadsOperand.call rfl (by decide) (.cons extraction.readsTest .nil) (by simp)
  | postgres => exact ReadsOperand.call rfl (by decide) (.cons extraction.readsTest .nil) (by simp)

theorem readsTest_words {words : List String} (plain : ∀ word ∈ words, '\\' ∉ word.toList) :
    List.Forall₂ (ReadsTest dialect) (words.map ([.constant ·])) (words.map .constant) := by
  induction words with
  | nil => exact .nil
  | cons word words ih =>
      have first := @ReadsOperand.constant dialect word (plain word (by simp))
      exact .cons first.readsTest (ih fun other member => plain other (by simp [member]))

theorem readsTest_kindTest (dialect : JsonDialect) (kind : ScalarKind) :
    ReadsTest (.json dialect) (dialect.kindTest documentColumn path kind)
      (dialect.kindTested path kind) := by
  have operand := readsOperand_typeOf path dialect
  have words : List.Forall₂ (ReadsTest (.json dialect))
      ((dialect.typeWords kind).map ([.constant ·])) ((dialect.typeWords kind).map .constant) := by
    apply readsTest_words
    cases dialect <;> cases kind <;> decide
  have some_word : (dialect.typeWords kind).map ([Piece.constant ·]) ≠ [] := by
    cases dialect <;> cases kind <;> simp [typeWords]
  cases dialect with
  | sqlite => exact ReadsTest.among operand words some_word
  | mysql => exact ReadsTest.among operand words some_word
  | postgres =>
      -- There is a single word for each kind.
      have word : ReadsOperand (.json .postgres)
          (Fragment.separated ", " ((typeWords .postgres kind).map ([.constant ·])))
          (.constant ((typeWords .postgres kind).headD "")) := by
        cases kind with
        | number => exact @ReadsOperand.constant _ "number" (by decide)
        | string => exact @ReadsOperand.constant _ "string" (by decide)
        | bool => exact @ReadsOperand.constant _ "boolean" (by decide)
      exact ReadsTest.compare operand word .eq

theorem readsTest_nullTest (dialect : JsonDialect) :
    ReadsTest (.json dialect) (dialect.nullTest documentColumn path) (dialect.nullTested path) := by
  have absent {word : String} (plain : '\\' ∉ word.toList) :
      ReadsTest (.json dialect) (nullTest.absentAs dialect documentColumn path word)
        (nullTested.absentAs dialect path word) := by
    have constant := @ReadsOperand.constant (.json dialect) word plain
    have operand := readsOperand_typeOf path dialect
    have coalesced : ReadsOperand (.json dialect)
        (Fragment.call "COALESCE" [dialect.typeOf documentColumn path, [.constant word]])
        (.call "COALESCE" [dialect.typeWord path, .constant word]) := by
      apply ReadsOperand.call rfl (by decide)
      · exact .cons operand.readsTest (.cons constant.readsTest .nil)
      · simp
    exact ReadsTest.compare coalesced constant .eq
  cases dialect with
  | sqlite => exact (ReadsTest.isNull (readsOperand_extraction path .sqlite)).1
  | mysql => exact absent (by decide)
  | postgres => exact absent (by decide)

theorem readsTest_existenceTest (dialect : JsonDialect) :
    ReadsTest (.json dialect) (dialect.existenceTest documentColumn path)
      (dialect.existenceTested path) := by
  cases dialect with
  | sqlite => exact (ReadsTest.isNull (readsOperand_typeOf path .sqlite)).2
  | mysql =>
      have one : ReadsTest (.json .mysql) [.constant "one"] (.constant "one") :=
        (ReadsOperand.constant (by decide)).readsTest
      apply ReadsOperand.readsTest
      apply ReadsOperand.call rfl (by decide)
      · exact .cons readsTest_column (.cons one (.cons (readsTest_jsonPath path) .nil))
      · simp
  | postgres => exact (ReadsTest.isNull (readsOperand_extraction path .postgres)).2

end JsonDialect

/-! ## Predicates -/

namespace Predicate

mutual

/-- The expression that a predicate is meant to be. -/
def expression (dialect : JsonDialect) : Predicate → Expression
  | .constant value => .compare .eq (.number 1) (.number (if value then 1 else 0))
  | .all parts => Expression.joined .both (expressions dialect parts)
  | .any parts => Expression.joined .either (expressions dialect parts)
  | .negation part => .negation (expression dialect part)
  | .notTrue part => .negation (.call "COALESCE" [expression dialect part, .falsity])
  | .present path => dialect.existenceTested path
  | .nullOrMissing path => dialect.nullTested path
  | .ofKind path kind => dialect.kindTested path kind
  | .compare path comparison literal =>
      .compare comparison (dialect.extracted path) (dialect.literal literal)
  | .among path literals => .among (dialect.extracted path) (literals.map dialect.literal)

/-- The expressions of predicates. -/
def expressions (dialect : JsonDialect) : List Predicate → List Expression
  | [] => []
  | part :: rest => expression dialect part :: expressions dialect rest

end

mutual

/-- Whether a predicate has a text that can be read: no list in it is empty,
and it compares nothing with null. -/
def Printable : Predicate → Prop
  | .all parts | .any parts => parts ≠ [] ∧ AllPrintable parts
  | .negation part | .notTrue part => Printable part
  | .compare _ _ literal => literal ≠ .null
  | .among _ literals => literals ≠ []
  | .constant _ | .present _ | .nullOrMissing _ | .ofKind .. => True

/-- Whether predicates have texts that can be read. -/
def AllPrintable : List Predicate → Prop
  | [] => True
  | part :: rest => Printable part ∧ AllPrintable rest

end

theorem expressions_eq_map (dialect : JsonDialect) (parts : List Predicate) :
    expressions dialect parts = parts.map (expression dialect) := by
  induction parts with
  | nil => rfl
  | cons part rest ih => rw [expressions, ih, List.map_cons]

theorem allPrintable_iff {parts : List Predicate} :
    AllPrintable parts ↔ ∀ part ∈ parts, part.Printable := by
  induction parts with
  | nil => simp [AllPrintable]
  | cons part rest ih => simp [AllPrintable, ih]

open Fragment Expression

theorem readsTest_literals (dialect : JsonDialect) (literals : List Scalar) :
    List.Forall₂ (ReadsTest (.json dialect))
      (literals.map ([Dialect.literal (.json dialect) ·])) (literals.map dialect.literal) := by
  induction literals with
  | nil => exact .nil
  | cons literal rest ih =>
      have first := ReadsOperand.literal dialect literal
      exact .cons first.readsTest ih

mutual

theorem exists_fragment (dialect : JsonDialect) (predicate : Predicate)
    (printable : predicate.Printable) :
    ∃ fragment, predicate.fragment (.json dialect) = .ok fragment ∧
      ReadsTest (.json dialect) fragment (predicate.expression dialect) := by
  cases predicate with
  | constant value =>
      cases value with
      | true => exact ⟨_, rfl, _, Scans.code rfl rfl, isTest_truth true⟩
      | false => exact ⟨_, rfl, _, Scans.code rfl rfl, isTest_truth false⟩
  | all parts =>
      rw [Printable] at printable
      rcases printable with ⟨nonempty, parts_printable⟩
      rcases exists_fragments dialect parts parts_printable nonempty with
        ⟨fragments, printed, some_fragment, reads⟩
      refine ⟨parenthesized (separated " AND " fragments), ?_, ?_⟩
      · rw [fragment, printed]
        rfl
      · rw [expression]
        exact (ReadsOperand.conjunction reads some_fragment).readsTest
  | any parts =>
      rw [Printable] at printable
      rcases printable with ⟨nonempty, parts_printable⟩
      rcases exists_fragments dialect parts parts_printable nonempty with
        ⟨fragments, printed, some_fragment, reads⟩
      refine ⟨parenthesized (separated " OR " fragments), ?_, ?_⟩
      · rw [fragment, printed]
        rfl
      · rw [expression]
        exact (ReadsOperand.disjunction reads some_fragment).readsTest
  | negation part =>
      rw [Printable] at printable
      rcases exists_fragment dialect part printable with ⟨inner, printed, reads⟩
      refine ⟨.code "NOT " :: parenthesized inner, ?_, ?_⟩
      · rw [fragment, printed]
        rfl
      · rw [expression]
        exact ReadsTest.negation (ReadsOperand.group reads)
  | notTrue part =>
      rw [Printable] at printable
      rcases exists_fragment dialect part printable with ⟨inner, printed, reads⟩
      refine ⟨.code "NOT " :: Fragment.call "COALESCE" [inner, [.code "FALSE"]], ?_, ?_⟩
      · rw [fragment, printed]
        rfl
      · rw [expression]
        have falsity : ReadsTest (.json dialect) [.code "FALSE"] .falsity :=
          ⟨_, Scans.code rfl rfl, isTest_falsity⟩
        apply ReadsTest.negation
        apply ReadsOperand.call rfl (by decide)
        · exact .cons reads (.cons falsity .nil)
        · simp
  | present path => exact ⟨_, rfl, JsonDialect.readsTest_existenceTest path dialect⟩
  | nullOrMissing path => exact ⟨_, rfl, JsonDialect.readsTest_nullTest path dialect⟩
  | ofKind path kind => exact ⟨_, rfl, JsonDialect.readsTest_kindTest path dialect kind⟩
  | compare path comparison literal =>
      rw [Printable] at printable
      have extraction := JsonDialect.readsOperand_extraction path dialect
      refine ⟨_, ?_, ReadsTest.compare extraction (ReadsOperand.literal dialect literal) comparison⟩
      simp [fragment, Dialect.extraction, Dialect.json?, printable]
      rfl
  | among path literals =>
      rw [Printable] at printable
      have extraction := JsonDialect.readsOperand_extraction path dialect
      have nonempty : literals.map ([Dialect.literal (.json dialect) ·]) ≠ [] := by
        simpa using printable
      exact ⟨_, rfl, ReadsTest.among extraction (readsTest_literals dialect literals) nonempty⟩

theorem exists_fragments (dialect : JsonDialect) (parts : List Predicate)
    (printable : AllPrintable parts) (nonempty : parts ≠ []) :
    ∃ texts, fragments (.json dialect) parts = .ok texts ∧ texts ≠ [] ∧
      List.Forall₂ (ReadsTest (.json dialect)) texts (expressions dialect parts) := by
  cases parts with
  | nil => contradiction
  | cons part rest =>
      rw [AllPrintable] at printable
      rcases exists_fragment dialect part printable.1 with ⟨first, printed, reads⟩
      cases rest with
      | nil =>
          refine ⟨[first], ?_, by simp, .cons reads .nil⟩
          rw [fragments, printed]
          rfl
      | cons next others =>
          rcases exists_fragments dialect (next :: others) printable.2 (by simp) with
            ⟨texts, more, _, moreRead⟩
          refine ⟨first :: texts, ?_, by simp, .cons reads moreRead⟩
          rw [fragments, printed, more]
          rfl

end

end Predicate

end DocTable.Sql
