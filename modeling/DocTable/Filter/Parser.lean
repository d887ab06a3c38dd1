import DocTable.Filter.Condition

/-!
# Reading match documents

A match document is the JSON form of a condition. Its keys are joined by conjunction: a logical
operator over further match documents, or a field path with a literal to equal or an object of
field operators. Anything else is an error, and of several errors the first in reading order is
reported.
-/

namespace DocTable

/-- The operators that join a list of match documents. -/
inductive Junction where
  | all
  | any
deriving DecidableEq, Repr

/-- The condition that an operator makes of a list. -/
def Junction.join : Junction → List Condition → Condition
  | .all => Condition.all
  | .any => Condition.any

/-- The operators over match documents. -/
inductive LogicalOperator where
  /-- Over a list of match documents. -/
  | junction (kind : Junction)
  /-- Over one match document. -/
  | negation
deriving DecidableEq, Repr

/-- The logical operator of a key. -/
def LogicalOperator.ofKey? (key : String) : Option LogicalOperator :=
  if key = "$and" then some (.junction .all)
  else if key = "$or" then some (.junction .any)
  else if key = "$not" then some .negation
  else none

/-- The operators on the value at a path. -/
inductive FieldOperator where
  | eq
  | ne
  /-- One of the comparisons of order. -/
  | order (comparison : Comparison)
  | oneOf
  | noneOf
  | exists
  | not
deriving DecidableEq, Repr

/-- The field operator of a key. -/
def FieldOperator.ofKey? (key : String) : Option FieldOperator :=
  if key = "$eq" then some .eq
  else if key = "$ne" then some .ne
  else if key = "$gt" then some (.order .gt)
  else if key = "$gte" then some (.order .ge)
  else if key = "$lt" then some (.order .lt)
  else if key = "$lte" then some (.order .le)
  else if key = "$in" then some .oneOf
  else if key = "$nin" then some .noneOf
  else if key = "$exists" then some .exists
  else if key = "$not" then some .not
  else none

/-- Whether a key begins like an operator. -/
def isOperatorKey (key : String) : Bool := key.toList.head? == some '$'

namespace Condition

/-- The conjunction of conditions; a single one stands for itself. -/
def conjunction : List Condition → Condition
  | [] => .always
  | [part] => part
  | parts => .all parts

/-- The condition that the value at a path equals a literal. -/
def equal (path : FieldPath) : Scalar → Condition
  | .null => .isNull path
  | literal => .compare path .eq literal

/-- An operand that must be a scalar. -/
def scalarOperand (path : FieldPath) (operator : String) (operand : Json) : Except Error Scalar :=
  match Scalar.ofJson? operand with
  | some literal => pure literal
  | none => throw (FilterError.scalarExpected operator path.text : Error)

/-- An operand that must be an array of scalars. -/
def scalarOperands (path : FieldPath) (operator : String) : Json → Except Error (List Scalar)
  | .array elements => elements.mapM (scalarOperand path operator)
  | _ => throw (FilterError.arrayExpected operator path.text : Error)

/-- An operand that must be a scalar other than null. -/
def orderOperand (path : FieldPath) (operator : String) (operand : Json) :
    Except Error Scalar := do
  let literal ← scalarOperand path operator operand
  if literal = .null then throw (FilterError.orderAgainstNull operator path.text : Error)
  return literal

/-- Checks that an object under a field has operators for keys, and only those. -/
def checkOperators (path : FieldPath) (keys : List String) : Except Error Unit :=
  if keys.all (!isOperatorKey ·) then throw (FilterError.subdocument path.text : Error)
  else if keys.all isOperatorKey then pure ()
  else throw (FilterError.mixedKeys path.text : Error)

mutual

/-- The conditions of the entries of a match document. -/
def ofEntries : List (String × Json) → Except Error (List Condition)
  | [] => pure []
  | (key, value) :: rest => do
    let first ← ofEntry key value
    return first :: (← ofEntries rest)
termination_by structural entries => entries

/-- The condition of one entry of a match document. -/
def ofEntry (key : String) (value : Json) : Except Error Condition :=
  match LogicalOperator.ofKey? key with
  | some (.junction kind) =>
    match value with
    | .array elements =>
      if elements.isEmpty then throw (FilterError.listEmpty key : Error)
      else kind.join <$> ofDocuments key elements
    | _ => throw (FilterError.listExpected key : Error)
  | some .negation =>
    match value with
    | .object ⟨entries⟩ => (Condition.not ∘ conjunction) <$> ofEntries entries
    | _ => throw (FilterError.negationOfNonDocument : Error)
  | none =>
    if isOperatorKey key then throw (FilterError.unknownLogical key : Error)
    else do
      let path ← FieldPath.parse key
      match value with
      | .object ⟨entries⟩ =>
        checkOperators path (entries.map (·.1))
        conjunction <$> ofFieldEntries path entries
      | .array _ => throw (FilterError.arrayLiteral path.text : Error)
      | .null => return equal path .null
      | .bool value => return equal path (.bool value)
      | .number value => return equal path (.number value)
      | .string value => return equal path (.string value)
termination_by structural value

/-- The conditions of a list of match documents. -/
def ofDocuments (operator : String) : List Json → Except Error (List Condition)
  | [] => pure []
  | .object ⟨entries⟩ :: rest => do
    let first ← ofEntries entries
    return conjunction first :: (← ofDocuments operator rest)
  | other :: _ => throw (FilterError.listElement operator other : Error)
termination_by structural documents => documents

/-- The conditions of the operators on the value at a path. -/
def ofFieldEntries (path : FieldPath) : List (String × Json) → Except Error (List Condition)
  | [] => pure []
  | (key, operand) :: rest => do
    let first ← ofFieldEntry path key operand
    return first :: (← ofFieldEntries path rest)
termination_by structural entries => entries

/-- The condition of one operator on the value at a path. -/
def ofFieldEntry (path : FieldPath) (key : String) (operand : Json) : Except Error Condition :=
  match FieldOperator.ofKey? key with
  | some .eq => equal path <$> scalarOperand path key operand
  | some .ne => (Condition.not ∘ equal path) <$> scalarOperand path key operand
  | some (.order comparison) => .compare path comparison <$> orderOperand path key operand
  | some .oneOf => .oneOf path <$> scalarOperands path key operand
  | some .noneOf => (Condition.not ∘ .oneOf path) <$> scalarOperands path key operand
  | some .exists =>
    match operand with
    | .bool expected => pure (.exists path expected)
    | other => throw (FilterError.existsOperand path.text other : Error)
  | some .not =>
    match operand with
    | .object ⟨entries⟩ => do
      checkOperators path (entries.map (·.1))
      (Condition.not ∘ conjunction) <$> ofFieldEntries path entries
    | _ => throw (FilterError.fieldNegation path.text : Error)
  | none => throw (FilterError.unknownOperator key path.text : Error)
termination_by structural operand

end

/-- Reads a match document. -/
def ofDocument (filter : Document) : Except Error Condition :=
  conjunction <$> ofEntries filter.entries

end Condition

end DocTable
