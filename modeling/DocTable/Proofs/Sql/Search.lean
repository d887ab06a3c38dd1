import DocTable.Proofs.Sql.Binding

/-!
# The statements of a predicate

Statements about chosen rows put their beginning, which binds nothing, in front
of the text of a predicate. Only a search goes on behind it, with clauses that
begin with their keywords. So the predicate reads in all of them as it does on
its own, and its placeholders count from one.
-/

namespace DocTable.Sql

open Fragment

/-- The beginning of a search up to its predicate. -/
def searchHead (dialect : Dialect) (table : String) : Fragment :=
  .code "SELECT " :: dialect.documentText ++ [.code " FROM ", .identifier table, .code " WHERE "]

/-- The beginning of a statement that counts, up to its predicate. -/
def countHead (table : String) : Fragment :=
  [.code "SELECT COUNT(*) FROM ", .identifier table, .code " WHERE "]

/-- The beginning of a statement that deletes, up to its predicate. -/
def deleteHead (table : String) : Fragment :=
  [.code "DELETE FROM ", .identifier table, .code " WHERE "]

/-- What may stand behind the predicate of a search: nothing, or a clause with
its keyword. -/
def IsTail (text : String) : Prop :=
  text = "" ∨ ∃ word ∈ [" ORDER BY ", " LIMIT ", " OFFSET "], ∃ rest, text = word ++ rest

/-- A statement is this beginning, a clause and a tail. The values of the clause
are bound first, and these behind them. -/
structure Statement.Continues (statement : Statement) (head : String) (clause : Statement)
    (more : List Value) : Prop where
  sql_eq : ∃ tail, IsTail tail ∧ statement.sql = head ++ clause.sql ++ tail
  parameters_eq : statement.parameters = clause.parameters ++ more

section

variable (dialect : Dialect) {head : Fragment} (unbound : head.parameters = [])

include unbound

theorem Fragment.text_append (rest : Fragment) :
    (head ++ rest).text dialect = head.text dialect ++ rest.text dialect := by
  rw [text, chars_append, unbound, String.ofList_append]
  rfl

theorem Fragment.statement_append (rest : Fragment) :
    (head ++ rest).statement dialect =
      ⟨head.text dialect ++ (rest.statement dialect).sql, (rest.statement dialect).parameters⟩ := by
  simp only [statement, text_append dialect unbound, parameters_append, unbound, List.nil_append]

end

theorem parameters_searchHead (dialect : Dialect) (table : String) :
    (searchHead dialect table).parameters = [] := by
  rcases dialect with (_ | _ | _) | _ <;> rfl

/-- A clause of a search is empty or begins with its keyword. -/
def Fragment.IsClause (clause : Fragment) : Prop :=
  clause = [] ∨ ∃ word ∈ ["ORDER BY ", "LIMIT ", "OFFSET "], ∃ rest, clause = .code word :: rest

namespace Dialect

variable (dialect : Dialect)

theorem orderClause_isClause (terms : List SortTerm) :
    Ensures IsClause (dialect.orderClause terms) := by
  apply (Ensures.trivially _).bind
  intro keys _
  apply Ensures.pure
  split
  · exact .inl rfl
  · exact .inr ⟨_, by simp, _, rfl⟩

theorem slice_isClause (limit skip : Option Fragment) :
    (dialect.slice limit skip).IsClause := by
  have clause {word : String} (keyword : word ∈ ["ORDER BY ", "LIMIT ", "OFFSET "])
      (rest : Fragment) : IsClause (.code word :: rest) := .inr ⟨word, keyword, rest, rfl⟩
  cases limit with
  | some limit => cases skip <;> exact clause (by simp) _
  | none =>
      cases skip with
      | none => exact .inl rfl
      | some skip => rcases dialect with (_ | _ | _) | _ <;> exact clause (by simp) _

theorem exists_orderClause (engine : JsonDialect) (terms : List SortTerm) :
    ∃ clause, (Dialect.json engine).orderClause terms = .ok clause := by
  have keys : ∃ keys, (terms.mapM fun term : SortTerm => do
      return (Dialect.json engine).orderTerm (← (Dialect.json engine).extraction term.1) term.2) =
        (.ok keys : Except Error _) := by
    induction terms with
    | nil => exact ⟨[], rfl⟩
    | cons term rest ih =>
        rcases ih with ⟨keys, read⟩
        rw [List.mapM_cons, read]
        exact ⟨_, rfl⟩
  rcases keys with ⟨keys, read⟩
  rw [orderClause, read]
  exact ⟨_, rfl⟩

/-- Every dialect leaves the rows in the order in which they were inserted. -/
theorem exists_orderClause_nil : ∃ clause, dialect.orderClause [] = .ok clause := ⟨_, rfl⟩

end Dialect

theorem Fragment.followedBy_eq (rows clause : Fragment) :
    rows.followedBy clause = rows ++ Fragment.followedBy [] clause := by
  unfold followedBy
  split <;> simp

/-- A keyword and what follows it are a tail, whatever was bound before. -/
theorem isTail_keyword (dialect : Dialect) (bound : Nat) {word : String}
    (keyword : word ∈ ["ORDER BY ", "LIMIT ", "OFFSET "]) (rest : Fragment) :
    IsTail (String.ofList (chars dialect bound (.code " " :: .code word :: rest))) := by
  have spaced : " " ++ word ∈ [" ORDER BY ", " LIMIT ", " OFFSET "] := by
    revert word
    decide
  have written : chars dialect bound (.code " " :: .code word :: rest) =
      " ".toList ++ word.toList ++ chars dialect bound rest := by
    have unbound (text : String) : (parameters [.code text]).length = 0 := rfl
    simp [chars, Piece.chars, unbound]
  refine .inr ⟨_, spaced, String.ofList (chars dialect bound rest), ?_⟩
  rw [written, String.ofList_append, String.ofList_append, String.ofList_toList,
    String.ofList_toList]

theorem isTail_followedBy (dialect : Dialect) (bound : Nat) {order slice : Fragment}
    (orderClause : order.IsClause) (sliceClause : slice.IsClause) :
    IsTail (String.ofList
      (chars dialect bound ((Fragment.followedBy [] order).followedBy slice))) := by
  rcases orderClause with rfl | ⟨word, keyword, rest, rfl⟩
  · rcases sliceClause with rfl | ⟨word, keyword, rest, rfl⟩
    · exact .inl rfl
    · exact isTail_keyword dialect bound keyword rest
  · rw [followedBy_eq]
    exact isTail_keyword dialect bound keyword _

theorem exists_countParameter {count : Nat} (bounded : count < 0x8000000000000000) :
    ∃ fragment, countParameter count = .ok fragment := by
  rw [countParameter, if_pos bounded]
  exact ⟨_, rfl⟩

theorem exists_countParameters {count : Option Nat}
    (bounded : ∀ number ∈ count, number < 0x8000000000000000) :
    ∃ fragment, count.mapM countParameter = .ok fragment := by
  cases count with
  | none => exact ⟨none, rfl⟩
  | some number =>
      rcases exists_countParameter (bounded number rfl) with ⟨fragment, bound⟩
      exact ⟨some fragment, by rw [Option.mapM_some, bound]; rfl⟩

namespace Command

variable {dialect : Dialect} (table : String) {predicate : Predicate} {fragment : Fragment}
variable (printed : predicate.fragment dialect = .ok fragment)

include printed

theorem statement_count : (count predicate).statement dialect table =
    .ok ⟨(countHead table).text dialect ++ (fragment.statement dialect).sql,
      (fragment.statement dialect).parameters⟩ := by
  rw [statement, Command.fragment, printed]
  exact congrArg Except.ok (Fragment.statement_append dialect rfl fragment)

theorem statement_deleteWhere : (deleteWhere predicate).statement dialect table =
    .ok ⟨(deleteHead table).text dialect ++ (fragment.statement dialect).sql,
      (fragment.statement dialect).parameters⟩ := by
  rw [statement, Command.fragment, printed]
  exact congrArg Except.ok (Fragment.statement_append dialect rfl fragment)

/-- A search is its beginning, the predicate and its clauses. -/
theorem fragment_select {order : Option (List SortTerm)} {limit skip : Option Nat}
    {clause : Fragment} {limitText skipText : Option Fragment}
    (ordered : (match order with
      | some terms => dialect.orderClause terms
      | none => pure []) = .ok clause)
    (limitBound : limit.mapM countParameter = .ok limitText)
    (skipBound : skip.mapM countParameter = .ok skipText) :
    (select predicate order limit skip).fragment dialect table =
      .ok (searchHead dialect table ++ (fragment ++
        (Fragment.followedBy [] clause).followedBy (dialect.slice limitText skipText))) := by
  have joined (rows : Fragment) :
      (rows.followedBy clause).followedBy (dialect.slice limitText skipText) =
        rows ++ (Fragment.followedBy [] clause).followedBy (dialect.slice limitText skipText) := by
    rw [followedBy_eq _ (dialect.slice limitText skipText), followedBy_eq rows,
      List.append_assoc, ← followedBy_eq]
  rw [← List.append_assoc, ← joined, Command.fragment, printed, limitBound, skipBound]
  cases order with
  | none =>
      cases ordered
      rfl
  | some terms =>
      have written : dialect.orderClause terms = .ok clause := ordered
      simp only [written]
      rfl

/-- A search has a statement if its order has a clause and its counts can be
bound. -/
theorem exists_statement_select {order : Option (List SortTerm)} {limit skip : Option Nat}
    (ordered : ∀ terms ∈ order, ∃ clause, dialect.orderClause terms = .ok clause)
    (limitBounded : ∀ count ∈ limit, count < 0x8000000000000000)
    (skipBounded : ∀ count ∈ skip, count < 0x8000000000000000) :
    ∃ statement, (select predicate order limit skip).statement dialect table = .ok statement ∧
      statement.Continues ((searchHead dialect table).text dialect) (fragment.statement dialect)
        (Dialect.countValues limit skip) := by
  rcases exists_countParameters limitBounded with ⟨limitText, limitBound⟩
  rcases exists_countParameters skipBounded with ⟨skipText, skipBound⟩
  have clause : ∃ clause : Fragment, clause.IsClause ∧
      (match order with
        | some terms => dialect.orderClause terms
        | none => pure []) = .ok clause := by
    cases order with
    | none => exact ⟨[], .inl rfl, rfl⟩
    | some terms =>
        rcases ordered terms rfl with ⟨clause, written⟩
        exact ⟨clause, (dialect.orderClause_isClause terms).of_ok _ written, written⟩
  rcases clause with ⟨clause, isClause, written⟩
  have composed := fragment_select table printed written limitBound skipBound
  have bound := (fragment_binds dialect table (select predicate order limit skip)).of_ok _ composed
  have values := ((predicate.fragment_binds dialect).of_ok _ printed).parameters_eq
  have isTail := isTail_followedBy dialect (0 + fragment.parameters.length) isClause
    (dialect.slice_isClause limitText skipText)
  refine ⟨_, by rw [statement, composed]; rfl, ⟨_, isTail, ?_⟩, ?_⟩
  · simp only [Fragment.statement, text, chars_append, parameters_searchHead, List.length_nil,
      Nat.add_zero, String.ofList_append, String.append_assoc]
  · change Fragment.parameters _ = fragment.parameters ++ _
    rw [bound.parameters_eq, values]
    rfl

end Command

end DocTable.Sql
