import DocTable.Proofs.Sql.Binding
import DocTable.Proofs.Sql.Sqlite

/-!
# Order clauses in SQLite

What SQLite reads in the text of an `ORDER BY` clause. The clause of some sort
terms is read as the values at their paths, each with its direction, and the rowid
behind them.
-/

namespace DocTable.Sql.Sqlite

/-- What rows are ordered by. -/
inductive OrderBasis where
  /-- The number of the row. -/
  | rowid
  /-- A value that is found in the row. -/
  | expression (value : Expression)

/-- The terms of an order, the most significant one first. -/
abbrev RowOrder : Type := List (OrderBasis × SortOrder)

/-- Cuts tokens at the commas outside all parentheses; the first part and the others. -/
def splitTerms : (depth : Nat) → List Token → List Token × List (List Token)
  | _, [] => ([], [])
  | 0, .comma :: rest => ([], (splitTerms 0 rest).1 :: (splitTerms 0 rest).2)
  | depth, token :: rest =>
      let inner := match token with
        | .openParenthesis => depth + 1
        | .closeParenthesis => depth - 1
        | _ => depth
      (token :: (splitTerms inner rest).1, (splitTerms inner rest).2)

/-- The direction of a word. -/
def direction? (token : Token) : Option SortOrder :=
  if token = .word "ASC" then some .asc else if token = .word "DESC" then some .desc else none

/-- What tokens order by. -/
def readBasis? (tokens : List Token) : Option OrderBasis :=
  if tokens = [.word "rowid"] then some .rowid
  else (Expression.ofTokens? tokens).map .expression

/-- A term: what to order by and the word for the direction. -/
def readTerm? (tokens : List Token) : Option (OrderBasis × SortOrder) := do
  let order ← direction? (← tokens.getLast?)
  return (← readBasis? tokens.dropLast, order)

/-- The order in the text of a clause that binds nothing. -/
def readOrder? (text : String) : Option RowOrder := do
  let tokens ← Token.scan? (.json .sqlite) text.toList
  match ← Token.fill? [] 0 tokens with
  | .word "ORDER" :: .word "BY" :: rest =>
      let (first, others) := splitTerms 0 rest
      (first :: others).mapM readTerm?
  | _ => none

/-- The terms of a clause are read in their order, the commas inside them aside. -/
example : readOrder? "ORDER BY json_extract(\"document\", '$.\"a\"') DESC, rowid ASC" =
    some [(.expression (.call "json_extract" [.column "document", .constant "$.\"a\""]), .desc),
      (.rowid, .asc)] := by
  rfl

/-! ## The clause of sort terms -/

open Fragment

/-- The order that a clause of sort terms stands for. -/
def rowOrder (terms : List SortTerm) : RowOrder :=
  terms.map (fun term => (.expression (JsonDialect.sqlite.extracted term.1), term.2)) ++
    [(.rowid, .asc)]

/-- The word for a direction. -/
def directionWord : SortOrder → Token
  | .asc => .word "ASC"
  | .desc => .word "DESC"

/-- The tokens of the value at a path. -/
def extractionTokens (path : FieldPath) : List Token :=
  [.word "json_extract", .openParenthesis, .quotation .name documentColumn, .comma,
    .quotation .constant (JsonDialect.pathNotation path), .closeParenthesis]

/-- The tokens of a sort term. -/
def termTokens (term : SortTerm) : List Token :=
  extractionTokens term.1 ++ [directionWord term.2]

/-- The fragment of a sort term. -/
def termFragment (term : SortTerm) : Fragment :=
  Dialect.orderTerm (.json .sqlite) (JsonDialect.sqlite.extraction documentColumn term.1) term.2

/-- The fragment of the last term. -/
def rowidFragment : Fragment := Dialect.orderTerm (.json .sqlite) [.code "rowid"] .asc

theorem orderClause_eq (terms : List SortTerm) :
    Dialect.orderClause (.json .sqlite) terms = .ok (.code "ORDER BY " :: separated ", "
      (terms.map termFragment ++ [rowidFragment])) := by
  have keys : (terms.mapM fun term : SortTerm => do
      return Dialect.orderTerm (.json .sqlite)
        (← Dialect.extraction (.json .sqlite) term.1) term.2) =
      (.ok (terms.map termFragment) : Except Error _) := List.mapM_pure
  have nonempty : (terms.map termFragment ++ [rowidFragment]).isEmpty = false := by
    rw [List.isEmpty_eq_false_iff]
    exact List.append_ne_nil_of_right_ne_nil _ (List.cons_ne_nil _ _)
  rw [Dialect.orderClause, keys]
  exact congrArg Except.ok (if_neg (Bool.eq_false_iff.1 nonempty))

theorem scans_extraction (path : FieldPath) :
    Scans (.json .sqlite) (JsonDialect.sqlite.extraction documentColumn path)
      (extractionTokens path) :=
  JsonDialect.scans_extraction path .sqlite documentColumn

theorem scans_orderTerm {expression : Fragment} {tokens : List Token}
    (scans : Scans (.json .sqlite) expression tokens) (order : SortOrder) :
    Scans (.json .sqlite) (Dialect.orderTerm (.json .sqlite) expression order)
      (tokens ++ [directionWord order]) := by
  have ascending : Scans (.json .sqlite) [.code " ASC"] [.word "ASC"] := Scans.code rfl rfl
  have descending : Scans (.json .sqlite) [.code " DESC"] [.word "DESC"] := Scans.code rfl rfl
  cases order with
  | asc =>
      change Scans _ (expression ++ [.code " ASC"]) _
      exact scans.append_code rfl ascending
  | desc =>
      change Scans _ (expression ++ [.code " DESC"]) _
      exact scans.append_code rfl descending

/-- Tokens whose commas all stand between parentheses. -/
def Encloses (tokens : List Token) : Prop :=
  ∀ rest, splitTerms 0 (tokens ++ rest) =
    (tokens ++ (splitTerms 0 rest).1, (splitTerms 0 rest).2)

theorem encloses_termTokens (term : SortTerm) : Encloses (termTokens term) := by
  rcases term with ⟨path, order⟩
  cases order <;> exact fun _ => rfl

theorem splitTerms_intercalate {lists : List (List Token)}
    (each : ∀ tokens ∈ lists, Encloses tokens) (nonempty : lists ≠ []) :
    (splitTerms 0 (List.intercalate [.comma] lists)).1 ::
      (splitTerms 0 (List.intercalate [.comma] lists)).2 = lists := by
  induction lists with
  | nil => contradiction
  | cons tokens rest ih =>
      rcases List.forall_mem_cons.1 each with ⟨first, later⟩
      cases rest with
      | nil =>
          have alone := first []
          rw [List.append_nil] at alone
          rw [List.intercalate_singleton, alone, splitTerms, List.append_nil]
      | cons next more =>
          rw [List.intercalate_cons_cons, List.append_assoc, first, List.singleton_append,
            splitTerms, List.append_nil, ih later (List.cons_ne_nil _ _)]

theorem ofTokens?_extractionTokens (path : FieldPath) :
    Expression.ofTokens? (extractionTokens path) = some (JsonDialect.sqlite.extracted path) := by
  have arguments : List.Forall₂ Expression.IsTest
      [[.quotation .name documentColumn], [.quotation .constant (JsonDialect.pathNotation path)]]
      (JsonDialect.pathArguments path) :=
    .cons (Expression.isOperand_quotation _).1.isTest
      (.cons (Expression.isOperand_quotation _).2.isTest .nil)
  exact Expression.ofTokens?_of_isTest
    (Expression.isOperand_call (by decide) arguments (List.cons_ne_nil _ _)).isTest

theorem readTerm?_append {tokens : List Token} {basis : OrderBasis}
    (read : readBasis? tokens = some basis) (order : SortOrder) :
    readTerm? (tokens ++ [directionWord order]) = some (basis, order) := by
  have direction : direction? (directionWord order) = some order := by cases order <;> rfl
  rw [readTerm?, List.getLast?_concat, List.dropLast_concat, read, Option.bind_eq_bind,
    Option.bind_some, direction]
  rfl

theorem readBasis?_extractionTokens (path : FieldPath) :
    readBasis? (extractionTokens path) =
      some (.expression (JsonDialect.sqlite.extracted path)) := by
  rw [readBasis?, if_neg (by simp [extractionTokens]), ofTokens?_extractionTokens]
  rfl

/-- The tokens of the terms of a clause. -/
def clauseTokens (terms : List SortTerm) : List (List Token) :=
  terms.map termTokens ++ [[.word "rowid"] ++ [directionWord .asc]]

theorem scans_clause (terms : List SortTerm) :
    List.Forall₂ (Scans (.json .sqlite)) (terms.map termFragment ++ [rowidFragment])
      (clauseTokens terms) := by
  have column : Scans (.json .sqlite) [.code "rowid"] [.word "rowid"] := Scans.code rfl rfl
  induction terms with
  | nil => exact .cons (scans_orderTerm column .asc) .nil
  | cons term rest ih => exact .cons (scans_orderTerm (scans_extraction term.1) term.2) ih

theorem encloses_clause (terms : List SortTerm) :
    ∀ tokens ∈ clauseTokens terms, Encloses tokens := by
  intro tokens member
  rcases List.mem_append.1 member with inTerms | inLast
  · rcases List.mem_map.1 inTerms with ⟨term, -, rfl⟩
    exact encloses_termTokens term
  · rw [List.mem_singleton.1 inLast]
    exact fun _ => rfl

theorem readTerms_clause (terms : List SortTerm) :
    (clauseTokens terms).mapM readTerm? = some (rowOrder terms) := by
  induction terms with
  | nil => rfl
  | cons term rest ih =>
      have first := readTerm?_append (readBasis?_extractionTokens term.1) term.2
      change (termTokens term :: clauseTokens rest).mapM readTerm? = _
      rw [List.mapM_cons, ih, termTokens, first]
      rfl

theorem readOrder?_orderClause {terms : List SortTerm} {clause : Fragment}
    (written : Dialect.orderClause (.json .sqlite) terms = .ok clause) :
    readOrder? (clause.text (.json .sqlite)) = some (rowOrder terms) := by
  have unbound :=
    ((Dialect.orderClause_binds (.json .sqlite) terms).of_ok clause written).parameters_eq
  have keyword : Token.run? (.json .sqlite) .between "ORDER BY ".toList =
    some ([.word "ORDER", .word "BY"], .between) := rfl
  have nonempty : terms.map termFragment ++ [rowidFragment] ≠ [] :=
    List.append_ne_nil_of_right_ne_nil _ (List.cons_ne_nil _ _)
  rw [orderClause_eq] at written
  cases written
  rcases Scans.code_cons keyword rfl
    (Scans.separated (isSeparator _).2.2 (scans_clause terms) nonempty) [] [] with
    ⟨raw, scanned, -, filled⟩
  rw [List.nil_append, List.append_nil, unbound] at filled
  rw [readOrder?, Fragment.text, String.toList_ofList]
  change (Token.scan? _ (Fragment.chars _ ([] : List Value).length _) >>= _) = _
  rw [scanned, Option.bind_eq_bind, Option.bind_some]
  change (Token.fill? [] ([] : List Value).length raw >>= _) = _
  rw [filled]
  have cut := splitTerms_intercalate (encloses_clause terms)
    (List.append_ne_nil_of_right_ne_nil _ (List.cons_ne_nil _ _))
  exact (congrArg (List.mapM readTerm?) cut).trans (readTerms_clause terms)

end DocTable.Sql.Sqlite
