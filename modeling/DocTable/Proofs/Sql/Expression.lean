import DocTable.Filter.Condition
import DocTable.Proofs.Sql.Token
import Mathlib.Data.List.Forall2

/-!
# Reading SQL expressions

The syntax tree of a boolean expression and the reader that finds it in a list
of tokens. The reader keeps a stack of what is still open and follows the rule
of precedence that all engines share: `->` binds tightest, then comparisons,
`IN` and `IS NULL`, then `NOT`, `AND` and finally `OR`. Where engines differ,
as for a comparison of comparisons, it refuses the text.

Two kinds of token lists are told apart. An operand may stand anywhere, and a
test may stand wherever no `NOT`, comparison or `->` waits for it. Each way of
putting a text together takes such lists to such a list.
-/

namespace DocTable.Sql

/-- A SQL expression whose parameters have their values. -/
inductive Expression where
  | number (value : Nat)
  | constant (text : String)
  | column (name : String)
  | parameter (value : Value)
  /-- The truth value `FALSE`. -/
  | falsity
  | call (function : String) (arguments : List Expression)
  | cast (operand : Expression) (type : String)
  /-- What `->` finds under a key. -/
  | member (operand key : Expression)
  | compare (comparison : Comparison) (left right : Expression)
  | among (operand : Expression) (list : List Expression)
  /-- `IS NULL`, or `IS NOT NULL` if the expectation is false. -/
  | isNull (operand : Expression) (expected : Bool)
  | negation (operand : Expression)
  | both (left right : Expression)
  | either (left right : Expression)
deriving Repr

namespace Expression

/-- What is open around the place where the reader is. -/
inductive Frame where
  /-- `left OR` -/
  | either (left : Expression)
  /-- `left AND` -/
  | both (left : Expression)
  /-- `NOT` -/
  | negation
  /-- `left` and the symbol of a comparison -/
  | compare (comparison : Comparison) (left : Expression)
  /-- `operand ->` -/
  | member (operand : Expression)
  /-- An opening parenthesis. -/
  | group
  /-- A call with the arguments so far. -/
  | arguments (function : String) (before : List Expression)
  /-- `operand IN` and the elements so far. -/
  | among (operand : Expression) (before : List Expression)

/-- What may follow, with what is open around it, the innermost first. -/
inductive Reader where
  /-- An operand or `NOT`. -/
  | expect (stack : List Frame)
  /-- What follows a word, which is a function if a parenthesis does. -/
  | word (text : String) (stack : List Frame)
  /-- What follows an operand. -/
  | operand (value : Expression) (stack : List Frame)
  /-- What follows a test, which is no operand without parentheses. -/
  | test (value : Expression) (stack : List Frame)
  /-- What follows `IS`. -/
  | is (value : Expression) (stack : List Frame)
  /-- What follows `IS NOT`. -/
  | isNot (value : Expression) (stack : List Frame)
  /-- What follows `IN`. -/
  | inList (value : Expression) (stack : List Frame)
  /-- The type of a cast. -/
  | type (value : Expression) (stack : List Frame)
  /-- The end of a cast. -/
  | typed (value : Expression) (name : String) (stack : List Frame)

namespace Frame

/-- Whether a test may stand here: nothing waits for it that binds tighter than
`AND`. -/
def admitsTest : List Frame → Bool
  | .negation :: _ | .compare .. :: _ | .member _ :: _ => false
  | _ => true

/-- Completes what binds tighter than a comparison. -/
def operands : Expression → List Frame → Expression × List Frame
  | value, .member operand :: stack => operands (.member operand value) stack
  | value, stack => (value, stack)

/-- Completes what binds tighter than `AND`. -/
def tests : Expression → List Frame → Expression × List Frame
  | value, .member operand :: stack => tests (.member operand value) stack
  | value, .compare comparison left :: stack => tests (.compare comparison left value) stack
  | value, .negation :: stack => tests (.negation value) stack
  | value, stack => (value, stack)

/-- Completes a conjunction. -/
def conjunctions : Expression → List Frame → Expression × List Frame
  | value, .both left :: stack => conjunctions (.both left value) stack
  | value, stack => (value, stack)

/-- Completes a disjunction. -/
def disjunctions : Expression → List Frame → Expression × List Frame
  | value, .either left :: stack => disjunctions (.either left value) stack
  | value, stack => (value, stack)

end Frame

/-- The words that stand for no function. -/
def isReserved (word : String) : Bool := ["AND", "OR", "IS", "IN", "AS"].contains word

/-- The value of a word. -/
def ofWord? (word : String) : Option Expression :=
  if word = "FALSE" then some .falsity else (decimalNumber? word.toList).map .number

/-- The comparison of a symbol. -/
def comparison? (symbol : String) : Option Comparison :=
  [Comparison.eq, .gt, .ge, .lt, .le].find? (·.symbol = symbol)

namespace Reader

open Expression.Frame

/-- The operand that has just been read. -/
def operand? : Reader → Option (Expression × List Frame)
  | .word text stack => (ofWord? text).map fun value => (value, stack)
  | .operand value stack => some (value, stack)
  | _ => none

/-- The left side of a comparison that may follow. -/
def comparand? (reader : Reader) : Option (Expression × List Frame) := do
  let (value, stack) ← reader.operand?
  match operands value stack with
  | (_, .compare .. :: _) => none
  | result => some result

/-- The test that has just been read. -/
def test? : Reader → Option (Expression × List Frame)
  | .test value stack => some (tests value stack)
  | reader => reader.operand?.map fun (value, stack) => tests value stack

/-- The conjunction that has just been read. -/
def conjunction? (reader : Reader) : Option (Expression × List Frame) :=
  reader.test?.map fun (value, stack) => conjunctions value stack

/-- The whole of what stands between two parentheses or commas. -/
def whole? (reader : Reader) : Option (Expression × List Frame) :=
  reader.conjunction?.map fun (value, stack) => disjunctions value stack

/-- Reads a word that follows an operand or a test. -/
def connect? (reader : Reader) (word : String) : Option Reader :=
  if word = "AND" then
    reader.conjunction?.map fun (value, stack) => .expect (.both value :: stack)
  else if word = "OR" then
    reader.whole?.map fun (value, stack) => .expect (.either value :: stack)
  else if word = "IS" then reader.comparand?.map fun (value, stack) => .is value stack
  else if word = "IN" then reader.comparand?.map fun (value, stack) => .inList value stack
  else if word = "AS" then
    match reader.whole? with
    | some (value, .arguments "CAST" [] :: stack) => some (.type value stack)
    | _ => none
  else none

/-- Reads a symbol that follows an operand. -/
def operate? (reader : Reader) (symbol : String) : Option Reader :=
  if symbol = "->" then
    reader.operand?.map fun (value, stack) =>
      let (value, stack) := operands value stack
      .expect (.member value :: stack)
  else do
    let comparison ← comparison? symbol
    let (value, stack) ← reader.comparand?
    return .expect (.compare comparison value :: stack)

/-- Closes a parenthesis. -/
def close? (reader : Reader) : Option Reader :=
  match reader.whole? with
  | some (value, .group :: stack) => some (.operand value stack)
  | some (value, .arguments function before :: stack) =>
      some (.operand (.call function (before.reverse ++ [value])) stack)
  | some (value, .among left before :: stack) =>
      some (.test (.among left (before.reverse ++ [value])) stack)
  | _ => none

/-- Goes on to the next argument or element. -/
def next? (reader : Reader) : Option Reader :=
  match reader.whole? with
  | some (value, .arguments function before :: stack) =>
      some (.expect (.arguments function (value :: before) :: stack))
  | some (value, .among left before :: stack) =>
      some (.expect (.among left (value :: before) :: stack))
  | _ => none

/-- Reads one token where an operand is expected. -/
def begin? (stack : List Frame) : Token → Option Reader
  | .word text =>
      if text = "NOT" then if admitsTest stack then some (.expect (.negation :: stack)) else none
      else if isReserved text then none
      else some (.word text stack)
  | .openParenthesis => some (.expect (.group :: stack))
  | .quotation .name text => some (.operand (.column text) stack)
  | .quotation .constant text => some (.operand (.constant text) stack)
  | .value value => some (.operand (.parameter value) stack)
  | _ => none

/-- Reads one token. -/
def step? (reader : Reader) (token : Token) : Option Reader :=
  match reader, token with
  | .expect stack, token => begin? stack token
  | .word text stack, .openParenthesis => some (.expect (.arguments text [] :: stack))
  | .is value stack, .word text =>
      if text = "NULL" then some (.test (.isNull value true) stack)
      else if text = "NOT" then some (.isNot value stack)
      else none
  | .isNot value stack, .word text =>
      if text = "NULL" then some (.test (.isNull value false) stack) else none
  | .inList value stack, .openParenthesis => some (.expect (.among value [] :: stack))
  | .type value stack, .word name => some (.typed value name stack)
  | .typed value name stack, .closeParenthesis => some (.operand (.cast value name) stack)
  | reader, .word text => reader.connect? text
  | reader, .symbol text => reader.operate? text
  | reader, .closeParenthesis => reader.close?
  | reader, .comma => reader.next?
  | _, _ => none

/-- Reads tokens one after the other. -/
def run? (reader : Reader) (tokens : List Token) : Option Reader := tokens.foldlM step? reader

end Reader

/-- The expression of a list of tokens whose parameters are filled in. -/
def ofTokens? (tokens : List Token) : Option Expression := do
  let reader ← Reader.run? (.expect []) tokens
  match ← reader.whole? with
  | (value, []) => some value
  | _ => none

/-- The expression that an engine finds in a text. The parameters are those of the whole
statement, of which the text in front of this one uses as many as `used` says. -/
def read? (dialect : Dialect) (parameters : List Value) (used : Nat) (text : String) :
    Option Expression := do
  let tokens ← Token.scan? dialect text.toList
  ofTokens? (← Token.fill? parameters used tokens)

theorem read?_eq_bind (dialect : Dialect) (parameters : List Value) (used : Nat) (text : String) :
    read? dialect parameters used text = Token.read? dialect parameters used text >>= ofTokens? :=
  (bind_assoc _ _ _).symm

/-- `AND` binds tighter than `OR`, and `NOT` and `IS` tighter than both. -/
example : read? (.json .sqlite) [.integer 1] 0 "FALSE OR NOT \"a\" = ? AND \"b\" IS NULL" =
    some (.either .falsity (.both (.negation (.compare .eq (.column "a") (.parameter (.integer 1))))
      (.isNull (.column "b") true))) := by
  rfl

/-! ## Operands and tests -/

/-- Tokens that are read as an operand wherever one is expected. -/
def IsOperand (tokens : List Token) (value : Expression) : Prop :=
  ∀ stack, Reader.run? (.expect stack) tokens = some (.operand value stack)

/-- Tokens that are read as a test wherever one may stand. -/
def IsTest (tokens : List Token) (value : Expression) : Prop :=
  ∀ stack, Frame.admitsTest stack = true → ∃ reader : Reader,
    Reader.run? (.expect stack) tokens = some reader ∧ reader.test? = some (value, stack)

theorem Reader.run?_append {reader middle : Reader} {first : List Token}
    (head : reader.run? first = some middle) (second : List Token) :
    reader.run? (first ++ second) = middle.run? second := by
  rw [run?, List.foldlM_append]
  simp only [run?] at head
  rw [head]
  rfl

theorem Reader.run?_cons {reader middle : Reader} {token : Token}
    (head : reader.step? token = some middle) (rest : List Token) :
    reader.run? (token :: rest) = middle.run? rest := by
  rw [run?, List.foldlM_cons, head]
  rfl

theorem Frame.tests_of_admitsTest {stack : List Frame} (admits : admitsTest stack = true)
    (value : Expression) : tests value stack = (value, stack) := by
  match stack, admits with
  | [], _ => rfl
  | .either _ :: _, _ | .both _ :: _, _ | .group :: _, _ => rfl
  | .arguments .. :: _, _ | .among .. :: _, _ => rfl

theorem Frame.operands_of_admitsTest {stack : List Frame} (admits : admitsTest stack = true)
    (value : Expression) : operands value stack = (value, stack) := by
  match stack, admits with
  | [], _ => rfl
  | .either _ :: _, _ | .both _ :: _, _ | .group :: _, _ => rfl
  | .arguments .. :: _, _ | .among .. :: _, _ => rfl

theorem Frame.tests_operands (value : Expression) (stack : List Frame) :
    tests (operands value stack).1 (operands value stack).2 = tests value stack := by
  induction stack generalizing value with
  | nil => rfl
  | cons frame stack ih =>
      cases frame with
      | member left => exact ih (.member left value)
      | _ => rfl

theorem IsOperand.isTest {tokens : List Token} {value : Expression}
    (operand : IsOperand tokens value) : IsTest tokens value := by
  intro stack admits
  refine ⟨.operand value stack, operand stack, ?_⟩
  simp [Reader.test?, Reader.operand?, Frame.tests_of_admitsTest admits]

/-- An operand in a place for a test may be the left side of a comparison. -/
theorem comparand?_of_admitsTest {stack : List Frame} (admits : Frame.admitsTest stack = true)
    (value : Expression) : (Reader.operand value stack).comparand? = some (value, stack) := by
  match stack, admits with
  | [], _ => rfl
  | .either _ :: _, _ | .both _ :: _, _ | .group :: _, _ => rfl
  | .arguments .. :: _, _ | .among .. :: _, _ => rfl

theorem isOperand_quotation (text : String) :
    IsOperand [.quotation .name text] (.column text) ∧
      IsOperand [.quotation .constant text] (.constant text) :=
  ⟨fun _ => rfl, fun _ => rfl⟩

theorem isOperand_value (value : Value) : IsOperand [.value value] (.parameter value) :=
  fun _ => rfl

theorem isTest_falsity : IsTest [.word "FALSE"] .falsity := by
  intro stack admits
  refine ⟨.word "FALSE" stack, rfl, ?_⟩
  simp [Reader.test?, Reader.operand?, ofWord?, Frame.tests_of_admitsTest admits]

/-- One compared with itself or with zero, which stands for a truth value. -/
theorem isTest_truth (truth : Bool) :
    IsTest [.word "1", .symbol "=", .word (if truth then "1" else "0")]
      (.compare .eq (.number 1) (.number (if truth then 1 else 0))) := by
  intro stack admits
  have one : ofWord? "1" = some (.number 1) := by rfl
  have right : ofWord? (if truth then "1" else "0") =
      some (.number (if truth then 1 else 0)) := by
    cases truth <;> rfl
  have begun : (Reader.expect stack).step? (.word "1") = some (.word "1" stack) := by
    simp [Reader.step?, Reader.begin?, isReserved]
  have compared : (Reader.word "1" stack).step? (.symbol "=") =
      some (.expect (.compare .eq (.number 1) :: stack)) := by
    have left : (Reader.word "1" stack).comparand? = some (.number 1, stack) := by
      simpa [Reader.comparand?, Reader.operand?, one] using
        comparand?_of_admitsTest admits (.number 1)
    have symbol : comparison? "=" = some .eq := rfl
    simp [Reader.step?, Reader.operate?, symbol, left]
  have last : (Reader.expect (.compare .eq (.number 1) :: stack)).step?
      (.word (if truth then "1" else "0")) =
      some (.word (if truth then "1" else "0") (.compare .eq (.number 1) :: stack)) := by
    cases truth <;> simp [Reader.step?, Reader.begin?, isReserved]
  refine ⟨.word (if truth then "1" else "0") (.compare .eq (.number 1) :: stack), ?_, ?_⟩
  · rw [Reader.run?_cons begun, Reader.run?_cons compared, Reader.run?_cons last]
    rfl
  · simp [Reader.test?, Reader.operand?, right, Frame.tests, Frame.tests_of_admitsTest admits]

variable {tokens others : List Token} {value other : Expression}

theorem isTest_negation (operand : IsOperand tokens value) :
    IsTest (.word "NOT" :: tokens) (.negation value) := by
  intro stack admits
  have begun : (Reader.expect stack).step? (.word "NOT") =
      some (.expect (.negation :: stack)) := by
    simp [Reader.step?, Reader.begin?, admits]
  refine ⟨.operand value (.negation :: stack), ?_, ?_⟩
  · rw [Reader.run?_cons begun]
    exact operand _
  · simp [Reader.test?, Reader.operand?, Frame.tests, Frame.tests_of_admitsTest admits]

theorem isTest_compare (left : IsOperand tokens value) (right : IsOperand others other)
    (comparison : Comparison) :
    IsTest (tokens ++ .symbol comparison.symbol :: others) (.compare comparison value other) := by
  intro stack admits
  have found : comparison? comparison.symbol = some comparison := by
    cases comparison <;> rfl
  have noArrow : comparison.symbol ≠ "->" := by
    cases comparison <;> decide
  have compared : (Reader.operand value stack).step? (.symbol comparison.symbol) =
      some (.expect (.compare comparison value :: stack)) := by
    simp [Reader.step?, Reader.operate?, noArrow, found, comparand?_of_admitsTest admits]
  refine ⟨.operand other (.compare comparison value :: stack), ?_, ?_⟩
  · rw [Reader.run?_append (left stack), Reader.run?_cons compared]
    exact right _
  · simp [Reader.test?, Reader.operand?, Frame.tests, Frame.tests_of_admitsTest admits]

theorem isTest_isNull (operand : IsOperand tokens value) :
    IsTest (tokens ++ [.word "IS", .word "NULL"]) (.isNull value true) ∧
      IsTest (tokens ++ [.word "IS", .word "NOT", .word "NULL"]) (.isNull value false) := by
  have begun {stack : List Frame} (admits : Frame.admitsTest stack = true) :
      (Reader.operand value stack).step? (.word "IS") = some (.is value stack) := by
    simp [Reader.step?, Reader.connect?, comparand?_of_admitsTest admits]
  constructor
  · intro stack admits
    refine ⟨.test (.isNull value true) stack, ?_, ?_⟩
    · rw [Reader.run?_append (operand stack), Reader.run?_cons (begun admits)]
      rfl
    · simp [Reader.test?, Frame.tests_of_admitsTest admits]
  · intro stack admits
    refine ⟨.test (.isNull value false) stack, ?_, ?_⟩
    · rw [Reader.run?_append (operand stack), Reader.run?_cons (begun admits)]
      rfl
    · simp [Reader.test?, Frame.tests_of_admitsTest admits]

/-- Keys behind an operand, each after `->`. The last one is still the right
side of its `->` when the reader is behind it. -/
theorem run?_members (keys : List String) {last : Expression} {inner stack : List Frame}
    (admits : Frame.admitsTest stack = true)
    (complete : Frame.operands last inner = (value, stack)) :
    ∃ final rest, Reader.run? (.operand last inner)
        (keys.flatMap fun key => [.symbol "->", .quotation .constant key]) =
          some (.operand final rest) ∧
      Frame.operands final rest =
        (keys.foldl (fun value key => .member value (.constant key)) value, stack) := by
  induction keys generalizing value last inner with
  | nil => exact ⟨last, inner, rfl, complete⟩
  | cons key keys ih =>
      have arrow : (Reader.operand last inner).step? (.symbol "->") =
          some (.expect (.member value :: stack)) := by
        simp [Reader.step?, Reader.operate?, Reader.operand?, complete]
      have found : (Reader.expect (.member value :: stack)).step? (.quotation .constant key) =
          some (.operand (.constant key) (.member value :: stack)) := rfl
      have next : Frame.operands (.constant key) (.member value :: stack) =
          (.member value (.constant key), stack) :=
        Frame.operands_of_admitsTest admits _
      rcases ih next with ⟨final, rest, read, whole⟩
      refine ⟨final, rest, ?_, whole⟩
      rw [List.flatMap_cons, List.cons_append, List.cons_append, Reader.run?_cons arrow,
        Reader.run?_cons found]
      exact read

theorem isTest_members (operand : IsOperand tokens value) (keys : List String) :
    IsTest (tokens ++ keys.flatMap fun key => [.symbol "->", .quotation .constant key])
      (keys.foldl (fun value key => .member value (.constant key)) value) := by
  intro stack admits
  rcases run?_members keys admits (Frame.operands_of_admitsTest admits value) with
    ⟨final, rest, read, whole⟩
  refine ⟨.operand final rest, ?_, ?_⟩
  · rw [Reader.run?_append (operand stack)]
    exact read
  · have complete := Frame.tests_operands final rest
    rw [whole, Frame.tests_of_admitsTest admits] at complete
    simp [Reader.test?, Reader.operand?, ← complete]

/-- Behind a test the reader is neither where an operand is expected nor
inside a test or a cast. -/
theorem Reader.step?_of_test? {reader : Reader} {result : Expression × List Frame}
    (read : reader.test? = some result) (word : String) :
    reader.step? (.word word) = reader.connect? word ∧
      reader.step? .closeParenthesis = reader.close? ∧
        reader.step? .comma = reader.next? := by
  cases reader with
  | word text stack => exact ⟨rfl, rfl, rfl⟩
  | operand value stack => exact ⟨rfl, rfl, rfl⟩
  | test value stack => exact ⟨rfl, rfl, rfl⟩
  | _ => simp [test?, operand?] at read

/-- Tests with a separator between them, read where each leaves the reader in
front of the next. `place` is the stack behind some tests and a separator. -/
theorem run?_separated {separator : Token} {place : List Expression → List Frame}
    (admits : ∀ before, Frame.admitsTest (place before) = true)
    (separate : ∀ (reader : Reader) before value, reader.test? = some (value, place before) →
      reader.step? separator = some (.expect (place (before ++ [value]))))
    {lists : List (List Token)} {values : List Expression}
    (each : List.Forall₂ IsTest lists values) (nonempty : values ≠ []) (before : List Expression) :
    ∃ reader : Reader,
      Reader.run? (.expect (place before)) (List.intercalate [separator] lists) = some reader ∧
        reader.test? = some (values.getLast nonempty, place (before ++ values.dropLast)) := by
  induction each generalizing before with
  | nil => contradiction
  | @cons tokens value lists values first rest ih =>
      rcases first (place before) (admits before) with ⟨reader, read, test⟩
      cases rest with
      | nil =>
          refine ⟨reader, ?_, ?_⟩
          · simpa [List.intercalate] using read
          · simpa using test
      | @cons second next more others secondTest rest =>
          rcases ih (by simp) (before ++ [value]) with ⟨final, finalRead, finalTest⟩
          refine ⟨final, ?_, ?_⟩
          · have split : List.intercalate [separator] (tokens :: second :: more) =
                tokens ++ separator :: List.intercalate [separator] (second :: more) := by
              simp [List.intercalate]
            rw [split, Reader.run?_append read,
              Reader.run?_cons (separate reader before value test)]
            exact finalRead
          · simpa using finalTest

/-- An expression joined from the left. -/
def joined (join : Expression → Expression → Expression) : List Expression → Expression
  | [] => .falsity
  | first :: rest => rest.foldl join first

/-- A stack with the join of some expressions waiting for another one. -/
def Frame.waiting (frame : Expression → Frame) (join : Expression → Expression → Expression)
    (stack : List Frame) : List Expression → List Frame
  | [] => stack
  | before => frame (joined join before) :: stack

theorem joined_append (join : Expression → Expression → Expression) {before : List Expression}
    (nonempty : before ≠ []) (value : Expression) :
    joined join (before ++ [value]) = join (joined join before) value := by
  cases before with
  | nil => contradiction
  | cons first rest => simp [joined]

/-- A test behind those that are joined by `AND` completes the conjunction. -/
theorem conjunction?_waiting {reader : Reader} {stack : List Frame} {before : List Expression}
    (read : reader.test? = some (value, Frame.waiting .both .both (.group :: stack) before)) :
    reader.conjunction? = some (joined .both (before ++ [value]), .group :: stack) := by
  rw [Reader.conjunction?, read]
  cases before with
  | nil => rfl
  | cons first rest =>
      rw [joined_append _ (by simp)]
      rfl

/-- A test behind those that are joined by `OR` completes the disjunction. -/
theorem whole?_waiting {reader : Reader} {stack : List Frame} {before : List Expression}
    (read : reader.test? = some (value, Frame.waiting .either .either (.group :: stack) before)) :
    reader.whole? = some (joined .either (before ++ [value]), .group :: stack) := by
  rw [Reader.whole?, Reader.conjunction?, read]
  cases before with
  | nil => rfl
  | cons first rest =>
      rw [joined_append _ (by simp)]
      rfl

variable {lists : List (List Token)} {values : List Expression}

theorem isOperand_conjunction (each : List.Forall₂ IsTest lists values) (nonempty : values ≠ []) :
    IsOperand (.openParenthesis :: (List.intercalate [.word "AND"] lists ++ [.closeParenthesis]))
      (joined .both values) := by
  intro stack
  have admits (before : List Expression) :
      Frame.admitsTest (Frame.waiting .both .both (.group :: stack) before) = true := by
    cases before <;> rfl
  have separate (reader : Reader) (before : List Expression) (value : Expression)
      (test : reader.test? = some (value, Frame.waiting .both .both (.group :: stack) before)) :
      reader.step? (.word "AND") =
        some (.expect (Frame.waiting .both .both (.group :: stack) (before ++ [value]))) := by
    rw [(Reader.step?_of_test? test "AND").1, Reader.connect?, conjunction?_waiting test]
    cases before <;> rfl
  rcases run?_separated admits separate each nonempty [] with ⟨reader, read, test⟩
  have whole : reader.whole? = some (joined .both values, .group :: stack) := by
    rw [Reader.whole?, conjunction?_waiting test]
    simp [Frame.disjunctions, List.dropLast_append_getLast nonempty]
  have closed : reader.step? .closeParenthesis = some (.operand (joined .both values) stack) := by
    rw [(Reader.step?_of_test? test "").2.1, Reader.close?, whole]
  rw [Reader.run?_cons rfl]
  exact (Reader.run?_append read _).trans (Reader.run?_cons closed [])

theorem isOperand_disjunction (each : List.Forall₂ IsTest lists values) (nonempty : values ≠ []) :
    IsOperand (.openParenthesis :: (List.intercalate [.word "OR"] lists ++ [.closeParenthesis]))
      (joined .either values) := by
  intro stack
  have admits (before : List Expression) :
      Frame.admitsTest (Frame.waiting .either .either (.group :: stack) before) = true := by
    cases before <;> rfl
  have separate (reader : Reader) (before : List Expression) (value : Expression)
      (test : reader.test? = some (value, Frame.waiting .either .either (.group :: stack) before)) :
      reader.step? (.word "OR") =
        some (.expect (Frame.waiting .either .either (.group :: stack) (before ++ [value]))) := by
    rw [(Reader.step?_of_test? test "OR").1, Reader.connect?, whole?_waiting test]
    cases before <;> rfl
  rcases run?_separated admits separate each nonempty [] with ⟨reader, read, test⟩
  have whole : reader.whole? = some (joined .either values, .group :: stack) := by
    rw [whole?_waiting test]
    simp [List.dropLast_append_getLast nonempty]
  have closed : reader.step? .closeParenthesis = some (.operand (joined .either values) stack) := by
    rw [(Reader.step?_of_test? test "").2.1, Reader.close?, whole]
  rw [Reader.run?_cons rfl]
  exact (Reader.run?_append read _).trans (Reader.run?_cons closed [])

theorem isOperand_group (test : IsTest tokens value) :
    IsOperand (.openParenthesis :: (tokens ++ [.closeParenthesis])) value := by
  simpa [List.intercalate, joined] using
    isOperand_conjunction (List.Forall₂.cons test .nil) (by simp)

/-- A test on a stack that ends in a parenthesis of a list is all there is in front of a comma. -/
theorem whole?_of_test? {reader : Reader} {stack : List Frame}
    (read : reader.test? = some (value, stack))
    (opened : Frame.conjunctions value stack = (value, stack) ∧
      Frame.disjunctions value stack = (value, stack)) :
    reader.whole? = some (value, stack) := by
  simp [Reader.whole?, Reader.conjunction?, read, opened.1, opened.2]

theorem isOperand_call {function : String} (plain : function ≠ "NOT" ∧ ¬isReserved function)
    (each : List.Forall₂ IsTest lists values) (nonempty : values ≠ []) :
    IsOperand (.word function :: .openParenthesis ::
        (List.intercalate [.comma] lists ++ [.closeParenthesis])) (.call function values) := by
  intro stack
  have admits (before : List Expression) :
      Frame.admitsTest (.arguments function before.reverse :: stack) = true := rfl
  have separate (reader : Reader) (before : List Expression) (value : Expression)
      (test : reader.test? = some (value, .arguments function before.reverse :: stack)) :
      reader.step? .comma =
        some (.expect (.arguments function (before ++ [value]).reverse :: stack)) := by
    rw [(Reader.step?_of_test? test "").2.2, Reader.next?, whole?_of_test? test ⟨rfl, rfl⟩]
    simp
  rcases run?_separated admits separate each nonempty [] with ⟨reader, read, test⟩
  have closed : reader.step? .closeParenthesis = some (.operand (.call function values) stack) := by
    rw [(Reader.step?_of_test? test "").2.1, Reader.close?, whole?_of_test? test ⟨rfl, rfl⟩]
    simp [List.dropLast_append_getLast nonempty]
  have begun : (Reader.expect stack).step? (.word function) = some (.word function stack) := by
    simp [Reader.step?, Reader.begin?, plain.1, plain.2]
  rw [Reader.run?_cons begun, Reader.run?_cons rfl]
  exact (Reader.run?_append read _).trans (Reader.run?_cons closed [])

theorem isTest_among (operand : IsOperand tokens value)
    (each : List.Forall₂ IsTest lists values) (nonempty : values ≠ []) :
    IsTest (tokens ++ .word "IN" :: .openParenthesis ::
        (List.intercalate [.comma] lists ++ [.closeParenthesis])) (.among value values) := by
  intro stack stackAdmits
  have admits (before : List Expression) :
      Frame.admitsTest (.among value before.reverse :: stack) = true := rfl
  have separate (reader : Reader) (before : List Expression) (element : Expression)
      (test : reader.test? = some (element, .among value before.reverse :: stack)) :
      reader.step? .comma =
        some (.expect (.among value (before ++ [element]).reverse :: stack)) := by
    rw [(Reader.step?_of_test? test "").2.2, Reader.next?, whole?_of_test? test ⟨rfl, rfl⟩]
    simp
  rcases run?_separated admits separate each nonempty [] with ⟨reader, read, test⟩
  have closed : reader.step? .closeParenthesis = some (.test (.among value values) stack) := by
    rw [(Reader.step?_of_test? test "").2.1, Reader.close?, whole?_of_test? test ⟨rfl, rfl⟩]
    simp [List.dropLast_append_getLast nonempty]
  have begun : (Reader.operand value stack).step? (.word "IN") = some (.inList value stack) := by
    simp [Reader.step?, Reader.connect?, comparand?_of_admitsTest stackAdmits]
  refine ⟨.test (.among value values) stack, ?_, ?_⟩
  · rw [Reader.run?_append (operand stack), Reader.run?_cons begun, Reader.run?_cons rfl]
    exact (Reader.run?_append read _).trans (Reader.run?_cons closed [])
  · simp [Reader.test?, Frame.tests_of_admitsTest stackAdmits]

theorem isOperand_cast (operand : IsOperand tokens value) (type : String) :
    IsOperand (.word "CAST" :: .openParenthesis ::
        (tokens ++ [.word "AS", .word type, .closeParenthesis])) (.cast value type) := by
  intro stack
  have begun : (Reader.expect stack).step? (.word "CAST") = some (.word "CAST" stack) := by
    simp [Reader.step?, Reader.begin?, isReserved]
  rw [Reader.run?_cons begun, Reader.run?_cons rfl, Reader.run?_append (operand _)]
  rfl

theorem ofTokens?_of_isTest (test : IsTest tokens value) : ofTokens? tokens = some value := by
  rcases test [] rfl with ⟨reader, read, result⟩
  simp [ofTokens?, read, whole?_of_test? result ⟨rfl, rfl⟩]

end Expression

end DocTable.Sql
