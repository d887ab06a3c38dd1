import DocTable.Proofs.Sql.Expression
import DocTable.Sql.Predicate

/-!
# Predicates read back

The text of a predicate, read by the rules of SQL, is the expression that the
predicate stands for: no operator in it captures an operand of another one.
The texts of the pieces are joined only where a delimiter stands between them,
so each can be split into tokens alone; the tokens of an operand or a test are
then put together as the reader takes them.
-/

namespace DocTable.Sql

namespace Fragment

/-- The text of a fragment splits into tokens, which are the given ones when
the fragment's own parameters stand in its placeholders. -/
def Scans (dialect : Dialect) (fragment : Fragment) (tokens : List Token) : Prop :=
  ∀ before after : List Value, ∃ raw,
    Token.scan? dialect (fragment.chars dialect before.length) = some raw ∧
      Token.placeholders raw = fragment.parameters.length ∧
      Token.fill? (before ++ fragment.parameters ++ after) before.length raw = some tokens

variable {dialect : Dialect} {first second : Fragment} {left right : List Token}

/-- A code text behind a fragment begins with a delimiter. -/
def beginsDelimited (text : String) : Bool :=
  match text.toList with
  | [] => false
  | char :: _ => (Token.ofDelimiter? char).isSome

theorem fill?_of_placeholders_eq_zero {parameters : List Value} {used : Nat} {tokens : List Token}
    (none : Token.placeholders tokens = 0) : Token.fill? parameters used tokens = some tokens := by
  induction tokens with
  | nil => rfl
  | cons token rest ih =>
      cases token with
      | placeholder number => simp [Token.placeholders] at none
      | _ => simp [Token.fill?, ih (by simpa [Token.placeholders] using none)]

theorem Scans.append_code {text : String} (head : Scans dialect first left)
    (delimited : beginsDelimited text = true) (tail : Scans dialect (.code text :: second) right) :
    Scans dialect (first ++ .code text :: second) (left ++ right) := by
  intro before after
  rcases head before (parameters (.code text :: second) ++ after) with ⟨raw, scanned, count, filled⟩
  rcases tail (before ++ first.parameters) after with ⟨more, tailScanned, tailCount, tailFilled⟩
  refine ⟨raw ++ more, ?_, ?_, ?_⟩
  · rw [chars_append]
    rw [List.length_append] at tailScanned
    cases characters : text.toList with
    | nil => simp [beginsDelimited, characters] at delimited
    | cons char rest =>
        simp only [beginsDelimited, characters] at delimited
        simp only [chars, Piece.chars, characters, List.cons_append] at tailScanned ⊢
        exact Token.scan?_append_delimiter scanned delimited tailScanned
  · simp [count, tailCount]
  · apply Token.fill?_append
    · simpa [List.append_assoc] using filled
    · rw [count]
      simpa [List.append_assoc] using tailFilled

/-- A code text that ends with a delimiter, in front of a fragment. -/
theorem Scans.code_cons {text : String} {left : List Token}
    (head : Token.run? dialect .between text.toList = some (left, .between))
    (plain : Token.placeholders left = 0) (tail : Scans dialect second right) :
    Scans dialect (.code text :: second) (left ++ right) := by
  intro before after
  rcases tail before after with ⟨more, scanned, count, filled⟩
  refine ⟨left ++ more, ?_, ?_, ?_⟩
  · exact Token.scan?_append head scanned
  · rw [Token.placeholders_append, plain, count, Nat.zero_add]
    rfl
  · apply Token.fill?_append
    · exact fill?_of_placeholders_eq_zero plain
    · rw [plain]
      exact filled

theorem Scans.nil : Scans dialect [] [] := by
  intro before after
  exact ⟨[], rfl, rfl, rfl⟩

/-- A code text alone. -/
theorem Scans.code {text : String} (scanned : Token.scan? dialect text.toList = some left)
    (plain : Token.placeholders left = 0) : Scans dialect [.code text] left := by
  intro before after
  refine ⟨left, ?_, plain, fill?_of_placeholders_eq_zero plain⟩
  simpa [chars, Piece.chars] using scanned

theorem Scans.identifier (name : String) :
    Scans dialect [.identifier name] [.quotation .name name] := by
  intro before after
  refine ⟨[.quotation .name name], ?_, rfl, rfl⟩
  have scanned := Token.scan?_quoted dialect .name name.toList (by simp)
  simpa [chars, Piece.chars, Quotation.mark, String.ofList_toList] using scanned

theorem Scans.constant {text : String} (plain : '\\' ∉ text.toList) :
    Scans dialect [.constant text] [.quotation .constant text] := by
  intro before after
  refine ⟨[.quotation .constant text], ?_, rfl, rfl⟩
  have scanned := Token.scan?_quoted dialect .constant text.toList fun _ => plain
  simpa [chars, Piece.chars, Quotation.mark, String.ofList_toList] using scanned

/-- The tokens are read in the text of the fragment, whatever is bound in front of it and behind
it. -/
theorem Scans.read?_eq (scans : Scans dialect first left) (before after : List Value) :
    Token.read? dialect (before ++ first.parameters ++ after) before.length
      (String.ofList (first.chars dialect before.length)) = some left := by
  rcases scans before after with ⟨raw, scanned, -, filled⟩
  rw [Token.read?, String.toList_ofList, scanned]
  exact filled

/-- The text of a fragment that binds nothing splits into the fragment's tokens. -/
theorem Scans.scan?_text (scans : Scans dialect first left) (unbound : first.parameters = []) :
    Token.scan? dialect (first.text dialect).toList = some left := by
  rcases scans [] [] with ⟨raw, scanned, count, filled⟩
  rw [unbound] at count
  rw [fill?_of_placeholders_eq_zero count] at filled
  cases filled
  rw [Fragment.text, String.toList_ofList]
  exact scanned

end Fragment

/-- How the placeholder of a JSON literal is read. -/
def JsonDialect.literal (dialect : JsonDialect) (literal : Scalar) : Expression :=
  let parameter : Expression := .parameter (Dialect.literalValue (.json dialect) literal)
  match dialect with
  | .sqlite => parameter
  | .mysql => .cast parameter "JSON"
  | .postgres => .cast parameter "JSONB"

namespace Dialect

/-- The type that the placeholder of a parameter casts the value to, if any. -/
def castType? : Dialect → Role → Option String
  | .json .mysql, .literal => some "JSON"
  | .json .postgres, .literal | .json .postgres, .document => some "JSONB"
  | _, _ => none

/-- How the placeholder of a parameter is read. -/
def bound (dialect : Dialect) (role : Role) (value : Value) : Expression :=
  match dialect.castType? role with
  | some type => .cast (.parameter value) type
  | none => .parameter value

/-- The tokens of the placeholder of a parameter, with its value filled in. -/
def boundTokens (dialect : Dialect) (role : Role) (value : Value) : List Token :=
  match dialect.castType? role with
  | some type => [.word "CAST", .openParenthesis, .value value, .word "AS", .word type,
      .closeParenthesis]
  | none => [.value value]

theorem isOperand_boundTokens (dialect : Dialect) (role : Role) (value : Value) :
    Expression.IsOperand (dialect.boundTokens role value) (dialect.bound role value) := by
  have isParameter := Expression.isOperand_value value
  rw [boundTokens, bound]
  cases dialect.castType? role with
  | none => exact isParameter
  | some type => exact Expression.isOperand_cast isParameter type

end Dialect

namespace Fragment

open Expression

/-- A fragment that is read as an operand. -/
def ReadsOperand (dialect : Dialect) (fragment : Fragment) (value : Expression) : Prop :=
  ∃ tokens, Scans dialect fragment tokens ∧ IsOperand tokens value

/-- A fragment that is read as a test. -/
def ReadsTest (dialect : Dialect) (fragment : Fragment) (value : Expression) : Prop :=
  ∃ tokens, Scans dialect fragment tokens ∧ IsTest tokens value

variable {value : Expression}

theorem ReadsOperand.readsTest (reads : ReadsOperand dialect first value) :
    ReadsTest dialect first value := by
  rcases reads with ⟨tokens, scans, operand⟩
  exact ⟨tokens, scans, operand.isTest⟩

theorem ReadsOperand.identifier (name : String) :
    ReadsOperand dialect [.identifier name] (.column name) :=
  ⟨_, Scans.identifier name, (isOperand_quotation name).1⟩

theorem ReadsOperand.constant {text : String} (plain : '\\' ∉ text.toList) :
    ReadsOperand dialect [.constant text] (.constant text) :=
  ⟨_, Scans.constant plain, (isOperand_quotation text).2⟩

/-- A parameter is scanned as soon as its placeholder is, which takes one value
and carries at most its own number. -/
theorem Scans.parameter {role : Role} {own : Value} (before after : List Token)
    (plain : Token.placeholders before = 0 ∧ Token.placeholders after = 0)
    (scanned : ∀ index, ∃ number, number.getD (index + 1) = index + 1 ∧
      Token.scan? dialect (dialect.placeholder role (index + 1)) =
        some (before ++ .placeholder number :: after)) :
    Scans dialect [.parameter role own] (before ++ .value own :: after) := by
  intro earlier later
  rcases scanned earlier.length with ⟨number, own_number, scanned⟩
  refine ⟨before ++ .placeholder number :: after, ?_, ?_, ?_⟩
  · simpa [chars, Piece.chars] using scanned
  · have alone : Token.placeholders (.placeholder number :: after) =
        Token.placeholders after + 1 := by
      simp [Token.placeholders]
    rw [Token.placeholders_append, plain.1, alone, plain.2]
    rfl
  · apply Token.fill?_append (fill?_of_placeholders_eq_zero plain.1)
    have found : Token.parameter? (earlier ++ parameters [.parameter role own] ++ later)
        (earlier.length + 1) = some own := by
      simp [Token.parameter?, parameters, Piece.parameter?]
    rw [plain.1, Nat.add_zero, Token.fill?, own_number, found]
    simp [fill?_of_placeholders_eq_zero plain.2]

theorem scan?_castNumbered (index : Nat) :
    Token.scan? dialect ("CAST($".toList ++ decimal index ++ " AS JSONB)".toList) =
      some [.word "CAST", .openParenthesis, .placeholder (some index), .word "AS", .word "JSONB",
        .closeParenthesis] := by
  have opening : Token.run? dialect .between "CAST(".toList =
      some ([.word "CAST", .openParenthesis], .between) := rfl
  have closing : Token.scan? dialect " AS JSONB)".toList =
      some [.word "AS", .word "JSONB", .closeParenthesis] := rfl
  exact Token.scan?_append opening
    (Token.scan?_append_delimiter (Token.scan?_numbered index) rfl closing)

theorem Scans.bound (dialect : Dialect) (role : Role) (value : Value) :
    Scans dialect [.parameter role value] (dialect.boundTokens role value) := by
  rcases dialect with (_ | _ | _) | _ <;> cases role
  case json.mysql.literal =>
    apply Scans.parameter [.word "CAST", .openParenthesis]
      [.word "AS", .word "JSON", .closeParenthesis] ⟨rfl, rfl⟩
    exact fun index => ⟨none, rfl, rfl⟩
  case json.postgres.literal | json.postgres.document =>
    apply Scans.parameter [.word "CAST", .openParenthesis]
      [.word "AS", .word "JSONB", .closeParenthesis] ⟨rfl, rfl⟩
    exact fun index => ⟨some (index + 1), rfl, scan?_castNumbered (index + 1)⟩
  case json.postgres.plain =>
    apply Scans.parameter [] [] ⟨rfl, rfl⟩
    exact fun index => ⟨some (index + 1), rfl, Token.scan?_numbered (index + 1)⟩
  all_goals
    apply Scans.parameter [] [] ⟨rfl, rfl⟩
    exact fun index => ⟨none, rfl, rfl⟩

/-- A placeholder is read as the value that is bound for it, or as a cast of that value. -/
theorem ReadsOperand.parameter (dialect : Dialect) (role : Role) (value : Value) :
    ReadsOperand dialect [.parameter role value] (dialect.bound role value) :=
  ⟨_, Scans.bound dialect role value, dialect.isOperand_boundTokens role value⟩

theorem ReadsOperand.literal (dialect : JsonDialect) (literal : Scalar) :
    ReadsOperand (.json dialect) [Dialect.literal (.json dialect) literal]
      (dialect.literal literal) := by
  have parameter := ReadsOperand.parameter (.json dialect) .literal
    (Dialect.literalValue (.json dialect) literal)
  cases dialect <;> exact parameter

theorem ReadsTest.exists_ofTokens? (reads : ReadsTest dialect first value) :
    ∃ tokens, Scans dialect first tokens ∧ Expression.ofTokens? tokens = some value := by
  rcases reads with ⟨tokens, scans, test⟩
  exact ⟨tokens, scans, ofTokens?_of_isTest test⟩

/-- A test is read in the text of its fragment, whatever is bound in front of it and behind it. -/
theorem ReadsTest.read?_eq (reads : ReadsTest dialect first value) (before after : List Value) :
    Expression.read? dialect (before ++ first.parameters ++ after) before.length
      (String.ofList (first.chars dialect before.length)) = some value := by
  rcases reads.exists_ofTokens? with ⟨tokens, scans, found⟩
  rw [Expression.read?_eq_bind, scans.read?_eq]
  exact found

@[simp] theorem separated_cons_cons (separator : String) (first second : Fragment)
    (rest : List Fragment) :
    separated separator (first :: second :: rest) =
      first ++ .code separator :: separated separator (second :: rest) := by
  simp [separated, List.intercalate]

/-- The text between two fragments is one token that stands between blanks or
ends with one. -/
structure IsSeparator (dialect : Dialect) (text : String) (token : Token) : Prop where
  run : Token.run? dialect .between text.toList = some ([token], .between)
  delimited : beginsDelimited text = true
  plain : Token.placeholders [token] = 0

theorem isSeparator (dialect : Dialect) :
    IsSeparator dialect " AND " (.word "AND") ∧ IsSeparator dialect " OR " (.word "OR") ∧
      IsSeparator dialect ", " .comma :=
  ⟨⟨rfl, rfl, rfl⟩, ⟨rfl, rfl, rfl⟩, ⟨rfl, rfl, rfl⟩⟩

/-- The parts of fragments with a separator between them are scanned alone. -/
theorem Scans.separated {text : String} {token : Token} (separator : IsSeparator dialect text token)
    {fragments : List Fragment} {lists : List (List Token)}
    (each : List.Forall₂ (Scans dialect) fragments lists) (nonempty : fragments ≠ []) :
    Scans dialect (Fragment.separated text fragments) (List.intercalate [token] lists) := by
  induction each with
  | nil => contradiction
  | @cons fragment tokens fragments lists first rest ih =>
      cases rest with
      | nil => simpa [Fragment.separated, List.intercalate] using first
      | @cons next others more moreLists second rest =>
          rw [separated_cons_cons]
          have tail := Scans.code_cons separator.run separator.plain (ih (by simp))
          have whole := first.append_code separator.delimited tail
          simpa [List.intercalate] using whole

theorem Scans.parenthesized (inner : Scans dialect first left) :
    Scans dialect (Fragment.parenthesized first)
      (.openParenthesis :: (left ++ [.closeParenthesis])) := by
  have closing : Scans dialect [.code ")"] [.closeParenthesis] := Scans.code rfl rfl
  have opening : Token.run? dialect .between "(".toList = some ([.openParenthesis], .between) := rfl
  exact Scans.code_cons opening rfl (inner.append_code rfl closing)

theorem values_ne_nil {fragments : List Fragment} {values : List Expression}
    (each : List.Forall₂ (ReadsTest dialect) fragments values) (nonempty : fragments ≠ []) :
    values ≠ [] := by
  rintro rfl
  cases each
  contradiction

theorem exists_tokens {fragments : List Fragment} {values : List Expression}
    (each : List.Forall₂ (ReadsTest dialect) fragments values) :
    ∃ lists, List.Forall₂ (Scans dialect) fragments lists ∧ List.Forall₂ IsTest lists values := by
  induction each with
  | nil => exact ⟨[], .nil, .nil⟩
  | cons first rest ih =>
      rcases first with ⟨tokens, scans, test⟩
      rcases ih with ⟨lists, allScan, allTest⟩
      exact ⟨tokens :: lists, .cons scans allScan, .cons test allTest⟩

variable {fragments : List Fragment} {values : List Expression}

theorem ReadsOperand.conjunction (each : List.Forall₂ (ReadsTest dialect) fragments values)
    (nonempty : fragments ≠ []) :
    ReadsOperand dialect (Fragment.parenthesized (Fragment.separated " AND " fragments))
      (joined .both values) := by
  rcases exists_tokens each with ⟨lists, allScan, allTest⟩
  exact ⟨_, (Scans.separated (isSeparator dialect).1 allScan nonempty).parenthesized,
    isOperand_conjunction allTest (values_ne_nil each nonempty)⟩

theorem ReadsOperand.disjunction (each : List.Forall₂ (ReadsTest dialect) fragments values)
    (nonempty : fragments ≠ []) :
    ReadsOperand dialect (Fragment.parenthesized (Fragment.separated " OR " fragments))
      (joined .either values) := by
  rcases exists_tokens each with ⟨lists, allScan, allTest⟩
  exact ⟨_, (Scans.separated (isSeparator dialect).2.1 allScan nonempty).parenthesized,
    isOperand_disjunction allTest (values_ne_nil each nonempty)⟩

theorem ReadsOperand.group (test : ReadsTest dialect first value) :
    ReadsOperand dialect (Fragment.parenthesized first) value := by
  rcases test with ⟨tokens, scans, isTest⟩
  exact ⟨_, scans.parenthesized, isOperand_group isTest⟩

theorem Scans.call {function : String}
    (word : Token.scan? dialect function.toList = some [.word function])
    {lists : List (List Token)} (each : List.Forall₂ (Scans dialect) fragments lists)
    (nonempty : fragments ≠ []) :
    Scans dialect (Fragment.call function fragments) (.word function :: .openParenthesis ::
      (List.intercalate [.comma] lists ++ [.closeParenthesis])) := by
  have name : Scans dialect [.code function] [.word function] := Scans.code word rfl
  exact name.append_code rfl (Scans.separated (isSeparator dialect).2.2 each nonempty).parenthesized

theorem ReadsOperand.call {function : String}
    (word : Token.scan? dialect function.toList = some [.word function])
    (plain : function ≠ "NOT" ∧ ¬isReserved function)
    (each : List.Forall₂ (ReadsTest dialect) fragments values) (nonempty : fragments ≠ []) :
    ReadsOperand dialect (Fragment.call function fragments) (.call function values) := by
  rcases exists_tokens each with ⟨lists, allScan, allTest⟩
  exact ⟨_, Scans.call word allScan nonempty,
    isOperand_call plain allTest (values_ne_nil each nonempty)⟩

theorem ReadsTest.negation (operand : ReadsOperand dialect first value) :
    ReadsTest dialect (.code "NOT " :: first) (.negation value) := by
  rcases operand with ⟨tokens, scans, isOperand⟩
  have word : Token.run? dialect .between "NOT ".toList = some ([.word "NOT"], .between) := rfl
  exact ⟨_, Scans.code_cons word rfl scans, isTest_negation isOperand⟩

theorem ReadsTest.isNull (operand : ReadsOperand dialect first value) :
    ReadsTest dialect (first ++ [.code " IS NULL"]) (.isNull value true) ∧
      ReadsTest dialect (first ++ [.code " IS NOT NULL"]) (.isNull value false) := by
  rcases operand with ⟨tokens, scans, isOperand⟩
  have missing : Scans dialect [.code " IS NULL"] [.word "IS", .word "NULL"] := Scans.code rfl rfl
  have present : Scans dialect [.code " IS NOT NULL"] [.word "IS", .word "NOT", .word "NULL"] :=
    Scans.code rfl rfl
  exact ⟨⟨_, scans.append_code rfl missing, (isTest_isNull isOperand).1⟩,
    ⟨_, scans.append_code rfl present, (isTest_isNull isOperand).2⟩⟩

theorem ReadsTest.compare {other : Expression} (operand : ReadsOperand dialect first value)
    (comparand : ReadsOperand dialect second other) (comparison : Comparison) :
    ReadsTest dialect (first ++ .code s!" {comparison.symbol} " :: second)
      (.compare comparison value other) := by
  rcases operand with ⟨tokens, scans, isOperand⟩
  rcases comparand with ⟨others, otherScans, otherOperand⟩
  have symbol : Token.run? dialect .between (s!" {comparison.symbol} ").toList =
      some ([.symbol comparison.symbol], .between) := by
    cases comparison <;> rfl
  have delimited : beginsDelimited s!" {comparison.symbol} " = true := by
    cases comparison <;> rfl
  exact ⟨_, scans.append_code delimited (Scans.code_cons symbol rfl otherScans),
    isTest_compare isOperand otherOperand comparison⟩

theorem ReadsTest.among (operand : ReadsOperand dialect first value)
    (each : List.Forall₂ (ReadsTest dialect) fragments values) (nonempty : fragments ≠ []) :
    ReadsTest dialect
      (first ++ .code " IN " :: Fragment.parenthesized (Fragment.separated ", " fragments))
      (.among value values) := by
  rcases operand with ⟨tokens, scans, isOperand⟩
  rcases exists_tokens each with ⟨lists, allScan, allTest⟩
  have list := (Scans.separated (isSeparator dialect).2.2 allScan nonempty).parenthesized
  have word : Token.run? dialect .between " IN ".toList = some ([.word "IN"], .between) := rfl
  exact ⟨_, scans.append_code rfl (Scans.code_cons word rfl list),
    isTest_among isOperand allTest (values_ne_nil each nonempty)⟩

end Fragment

end DocTable.Sql
