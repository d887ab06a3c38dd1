import DocTable.Filter.Parser
import DocTable.Proofs.FieldPath

/-!
# The meaning of match documents

The filter language as its users know it: which match documents are accepted
and which documents they match, both read off the JSON without conditions in
between. Every shape of a value allows certain keys. The reader of match
documents accepts the same ones, and the conditions that it returns hold of the
documents that are matched.
-/

namespace DocTable

namespace MatchDocument

/-- Whether a value is a literal. -/
def isLiteral : Json → Bool
  | .array _ | .object _ => false
  | .null | .bool _ | .number _ | .string _ => true

mutual

/-- Whether the entries of a match document are accepted. -/
def accepts : List (String × Json) → Bool
  | [] => true
  | (key, value) :: rest => acceptsEntry key value && accepts rest

/-- Whether one entry of a match document is accepted: a logical operator over
match documents, or a path with an object of operators or a literal. -/
def acceptsEntry (key : String) : Json → Bool
  | .array elements =>
      (key == "$and" || key == "$or") && !elements.isEmpty && acceptsAll elements
  | .object ⟨entries⟩ =>
      if key = "$not" then accepts entries
      else FieldPath.isPath key && !entries.isEmpty && acceptsOperators entries
  | .null | .bool _ | .number _ | .string _ => FieldPath.isPath key

/-- Whether every element of a list is a match document that is accepted. -/
def acceptsAll : List Json → Bool
  | [] => true
  | .object ⟨entries⟩ :: rest => accepts entries && acceptsAll rest
  | _ :: _ => false

/-- Whether all the keys of an object are operators with valid operands. -/
def acceptsOperators : List (String × Json) → Bool
  | [] => true
  | (key, operand) :: rest => acceptsOperator key operand && acceptsOperators rest

/-- Whether a key is an operator that takes such an operand. -/
def acceptsOperator (key : String) : Json → Bool
  | .object ⟨entries⟩ => key == "$not" && !entries.isEmpty && acceptsOperators entries
  | .array elements => ["$in", "$nin"].contains key && elements.all isLiteral
  | .null => ["$eq", "$ne"].contains key
  | .bool _ => ["$eq", "$ne", "$gt", "$gte", "$lt", "$lte", "$exists"].contains key
  | .number _ | .string _ => ["$eq", "$ne", "$gt", "$gte", "$lt", "$lte"].contains key

end

/-- The value that a document has under a dotted key. -/
def valueAt (document : Document) (key : String) : Option Json :=
  (Json.object document).lookup? ((FieldPath.partsOf key).map String.ofList)

/-- The order of a stored value and an operand of the same type. -/
def order? : Json → Json → Option Ordering
  | .number value, .number operand => some (value.compare operand)
  | .string value, .string operand => some (Ord.compare value operand)
  | .bool value, .bool operand => some (Ord.compare value operand)
  | _, _ => none

/-- Whether a value that may be missing is related to an operand of its own
type by one of some orders. -/
def related (orders : List Ordering) (value : Option Json) (operand : Json) : Bool :=
  match value.bind (order? · operand) with
  | some order => orders.contains order
  | none => false

/-- Whether a value that may be missing equals an operand. A missing value
equals null. -/
def equalTo (value : Option Json) : Json → Bool
  | .null =>
      match value with
      | none | some .null => true
      | some _ => false
  | operand => related [.eq] value operand

/-- Whether a value that may be missing passes an operator with a literal. -/
def passes (value : Option Json) (key : String) (operand : Json) : Bool :=
  if key = "$eq" then equalTo value operand
  else if key = "$ne" then !equalTo value operand
  else if key = "$gt" then related [.gt] value operand
  else if key = "$gte" then related [.gt] value operand || equalTo value operand
  else if key = "$lt" then related [.lt] value operand
  else if key = "$lte" then related [.lt] value operand || equalTo value operand
  else value.isSome == (operand matches .bool true)

mutual

/-- Whether a document matches all the entries of a match document. -/
def selects (document : Document) : List (String × Json) → Bool
  | [] => true
  | (key, value) :: rest => selectsEntry document key value && selects document rest

/-- Whether a document matches one entry of a match document. -/
def selectsEntry (document : Document) (key : String) : Json → Bool
  | .array elements =>
      if key = "$and" then selectsAll document elements else selectsAny document elements
  | .object ⟨entries⟩ =>
      if key = "$not" then !selects document entries
      else passesAll (valueAt document key) entries
  | literal => equalTo (valueAt document key) literal

/-- Whether a document matches all of some match documents. -/
def selectsAll (document : Document) : List Json → Bool
  | [] => true
  | .object ⟨entries⟩ :: rest => selects document entries && selectsAll document rest
  | _ :: _ => false

/-- Whether a document matches one of some match documents. -/
def selectsAny (document : Document) : List Json → Bool
  | [] => false
  | .object ⟨entries⟩ :: rest => selects document entries || selectsAny document rest
  | _ :: _ => false

/-- Whether a value that may be missing passes all of some operators. -/
def passesAll (value : Option Json) : List (String × Json) → Bool
  | [] => true
  | (key, operand) :: rest => passesOperator value key operand && passesAll value rest

/-- Whether a value that may be missing passes an operator. -/
def passesOperator (value : Option Json) (key : String) : Json → Bool
  | .object ⟨entries⟩ => !passesAll value entries
  | .array elements =>
      if key = "$in" then elements.any (equalTo value) else !elements.any (equalTo value)
  | literal => passes value key literal

end

end MatchDocument

/-! ## Conditions -/

namespace Condition

mutual

/-- Whether a condition joins no empty list and compares nothing with null. -/
def Regular : Condition → Prop
  | .all parts | .any parts => parts ≠ [] ∧ AllRegular parts
  | .not part => Regular part
  | .compare _ _ literal => literal ≠ .null
  | .always | .exists .. | .isNull _ | .oneOf .. => True

/-- Whether conditions are regular. -/
def AllRegular : List Condition → Prop
  | [] => True
  | part :: rest => Regular part ∧ AllRegular rest

end

/-- A regular condition that is a test of documents. -/
structure Means (condition : Condition) (test : Document → Bool) : Prop where
  regular : condition.Regular
  holds_eq : ∀ document, condition.holds document = test document

/-- Regular conditions that are a test of documents together. -/
structure AllMean (parts : List Condition) (test : Document → Bool) : Prop where
  regular : AllRegular parts
  holds_eq : ∀ document, allHold document parts = test document

variable {part : Condition} {parts : List Condition} {test : Document → Bool}

theorem AllMean.nil : AllMean [] fun _ => true :=
  ⟨trivial, fun _ => rfl⟩

theorem AllMean.cons {other : Document → Bool} (first : part.Means test)
    (rest : AllMean parts other) :
    AllMean (part :: parts) fun document => test document && other document := by
  constructor
  · exact ⟨first.regular, rest.regular⟩
  · intro document
    rw [allHold, first.holds_eq, rest.holds_eq]

theorem AllMean.conjunction (sound : AllMean parts test) : (conjunction parts).Means test := by
  have regular := sound.regular
  have holds_eq := sound.holds_eq
  match parts with
  | [] => exact ⟨trivial, holds_eq⟩
  | [part] =>
      constructor
      · exact regular.1
      · intro document
        rw [← holds_eq document, allHold, allHold, Bool.and_true]
        rfl
  | part :: next :: rest =>
      constructor
      · exact ⟨by simp, regular⟩
      · intro document
        rw [← holds_eq document]
        rfl

theorem Means.not (sound : part.Means test) :
    (Condition.not part).Means fun document => !test document := by
  constructor
  · exact sound.regular
  · intro document
    rw [holds, sound.holds_eq]

open MatchDocument

theorem isNullOrMissing_eq (value : Option Json) :
    isNullOrMissing value = equalTo value .null := by
  cases value with
  | none => rfl
  | some value => cases value <;> rfl

theorem compare?_eq (value : Json) (literal : Scalar) :
    Scalar.compare? value literal = order? value literal.toJson := by
  cases literal <;> cases value <;> rfl

theorem equalTo_eq_related {literal : Scalar} (nonnull : literal ≠ .null) (value : Option Json) :
    equalTo value literal.toJson = related [.eq] value literal.toJson := by
  cases literal with
  | null => contradiction
  | bool _ | number _ | string _ => rfl

theorem equals_eq (value : Option Json) (literal : Scalar) :
    equals value literal = equalTo value literal.toJson := by
  by_cases null : literal = .null
  · subst null
    exact isNullOrMissing_eq value
  · have unfolded : equals value literal =
        value.any fun value => Scalar.compare? value literal == some .eq := by
      cases literal with
      | null => contradiction
      | bool _ | number _ | string _ => cases value <;> rfl
    rw [unfolded, equalTo_eq_related null, related]
    cases value with
    | none => rfl
    | some value =>
        simp only [Option.any_some, Option.bind_some, ← compare?_eq]
        cases Scalar.compare? value literal with
        | none => rfl
        | some order => cases order <;> rfl

/-- A condition of order in the words of the filter language. -/
theorem holds_compare (document : Document) (path : FieldPath) (comparison : Comparison)
    (literal : Scalar) :
    (Condition.compare path comparison literal).holds document =
      match (document.lookup? path).bind (order? · literal.toJson) with
      | some order => comparison.holds order
      | none => false := by
  have same : (Scalar.compare? · literal) = (order? · literal.toJson) := by
    funext value
    exact compare?_eq value literal
  exact congrArg (fun compared : Json → Option Ordering =>
    match (document.lookup? path).bind compared with
    | some order => comparison.holds order
    | none => false) same

theorem means_equal (path : FieldPath) (literal : Scalar) :
    (equal path literal).Means fun document =>
      equalTo (document.lookup? path) literal.toJson := by
  by_cases null : literal = .null
  · subst null
    exact ⟨trivial, fun document => isNullOrMissing_eq _⟩
  · have unfolded : equal path literal = .compare path .eq literal := by
      cases literal with
      | null => contradiction
      | bool _ | number _ | string _ => rfl
    rw [unfolded]
    constructor
    · exact null
    · intro document
      rw [holds_compare, equalTo_eq_related null, related]
      cases (document.lookup? path).bind (order? · literal.toJson) with
      | none => rfl
      | some order => cases order <;> rfl

/-- A comparison of order holds where the strict one does, or equality if it
is not strict. -/
theorem means_compare (path : FieldPath) {literal : Scalar} (nonnull : literal ≠ .null) :
    (Condition.compare path .gt literal).Means (fun document =>
        related [.gt] (document.lookup? path) literal.toJson) ∧
      (Condition.compare path .lt literal).Means (fun document =>
        related [.lt] (document.lookup? path) literal.toJson) ∧
      (Condition.compare path .ge literal).Means (fun document =>
        related [.gt] (document.lookup? path) literal.toJson ||
          equalTo (document.lookup? path) literal.toJson) ∧
      (Condition.compare path .le literal).Means (fun document =>
        related [.lt] (document.lookup? path) literal.toJson ||
          equalTo (document.lookup? path) literal.toJson) := by
  refine ⟨⟨nonnull, ?_⟩, ⟨nonnull, ?_⟩, ⟨nonnull, ?_⟩, ⟨nonnull, ?_⟩⟩
  all_goals
    intro document
    simp only [holds_compare, equalTo_eq_related nonnull, related]
    cases (document.lookup? path).bind (order? · literal.toJson) with
    | none => rfl
    | some order => cases order <;> rfl

theorem means_oneOf (path : FieldPath) (literals : List Scalar) :
    (Condition.oneOf path literals).Means fun document =>
      (literals.map Scalar.toJson).any (equalTo (document.lookup? path)) := by
  constructor
  · trivial
  · intro document
    have equal_eq : equals (document.lookup? path) =
        equalTo (document.lookup? path) ∘ Scalar.toJson := by
      funext literal
      exact equals_eq _ literal
    rw [holds, equal_eq, List.any_map]

theorem scalarOperand_verdict (path : FieldPath) (operator : String) (operand : Json) :
    Verdict (fun literal => literal.toJson = operand) (scalarOperand path operator operand)
      (isLiteral operand) := by
  cases operand with
  | null | bool _ | number _ | string _ => exact Verdict.accepted rfl
  | array _ | object _ => exact Verdict.rejected _

theorem scalarOperands_verdict (path : FieldPath) (operator : String) (elements : List Json) :
    Verdict (fun literals => literals.map Scalar.toJson = elements)
      (scalarOperands path operator (.array elements)) (elements.all isLiteral) := by
  rw [scalarOperands]
  induction elements with
  | nil => exact Verdict.accepted rfl
  | cons element rest ih =>
      rw [List.mapM_cons, List.all_cons]
      apply (scalarOperand_verdict path operator element).combine ih
      rintro literal literals rfl rfl
      rfl

theorem orderOperand_verdict (path : FieldPath) (operator : String) (literal : Scalar) :
    Verdict (fun operand => operand = literal ∧ literal ≠ .null)
      (orderOperand path operator literal.toJson) (literal != .null) := by
  cases literal with
  | null => exact Verdict.rejected _
  | bool _ | number _ | string _ => exact Verdict.accepted ⟨rfl, by simp⟩

/-- The keys of the operators on the value at a path. -/
def operatorKeys : List String :=
  ["$eq", "$ne", "$gt", "$gte", "$lt", "$lte", "$in", "$nin", "$exists", "$not"]

/-- The operator of a key, by the key. -/
inductive OperatorKey : String → Option FieldOperator → Prop where
  | eq : OperatorKey "$eq" (some .eq)
  | ne : OperatorKey "$ne" (some .ne)
  | gt : OperatorKey "$gt" (some (.order .gt))
  | ge : OperatorKey "$gte" (some (.order .ge))
  | lt : OperatorKey "$lt" (some (.order .lt))
  | le : OperatorKey "$lte" (some (.order .le))
  | oneOf : OperatorKey "$in" (some .oneOf)
  | noneOf : OperatorKey "$nin" (some .noneOf)
  | presence : OperatorKey "$exists" (some .exists)
  | not : OperatorKey "$not" (some .not)
  | unknown {key : String} (other : key ∉ operatorKeys) : OperatorKey key none

theorem operatorKey (key : String) : OperatorKey key (FieldOperator.ofKey? key) := by
  by_cases known : key ∈ operatorKeys
  · simp only [operatorKeys, List.mem_cons, List.not_mem_nil, or_false] at known
    rcases known with rfl | rfl | rfl | rfl | rfl | rfl | rfl | rfl | rfl | rfl
    · exact .eq
    · exact .ne
    · exact .gt
    · exact .ge
    · exact .lt
    · exact .le
    · exact .oneOf
    · exact .noneOf
    · exact .presence
    · exact .not
  · have none : FieldOperator.ofKey? key = none := by
      have distinct := known
      simp only [operatorKeys, List.mem_cons, List.not_mem_nil, or_false, not_or] at distinct
      simp [FieldOperator.ofKey?, distinct]
    rw [none]
    exact .unknown known

theorem ofFieldEntry_literal (path : FieldPath) (key : String) (literal : Scalar) :
    Verdict (fun condition => condition.Means fun document =>
        passes (document.lookup? path) key literal.toJson)
      (ofFieldEntry path key literal.toJson) (acceptsOperator key literal.toJson) := by
  have view := operatorKey key
  rw [ofFieldEntry.eq_def]
  generalize FieldOperator.ofKey? key = operator at view
  cases view with
  | eq =>
      refine ((scalarOperand_verdict path "$eq" literal.toJson).map ?_).of_eq ?_
      · intro operand same
        rw [← same]
        exact means_equal path operand
      · cases literal <;> rfl
  | ne =>
      refine ((scalarOperand_verdict path "$ne" literal.toJson).map ?_).of_eq ?_
      · intro operand same
        rw [← same]
        exact (means_equal path operand).not
      · cases literal <;> rfl
  | gt =>
      refine ((orderOperand_verdict path "$gt" literal).map ?_).of_eq ?_
      · intro operand found
        rcases found with ⟨rfl, nonnull⟩
        exact (means_compare path nonnull).1
      · cases literal <;> rfl
  | ge =>
      refine ((orderOperand_verdict path "$gte" literal).map ?_).of_eq ?_
      · intro operand found
        rcases found with ⟨rfl, nonnull⟩
        exact (means_compare path nonnull).2.2.1
      · cases literal <;> rfl
  | lt =>
      refine ((orderOperand_verdict path "$lt" literal).map ?_).of_eq ?_
      · intro operand found
        rcases found with ⟨rfl, nonnull⟩
        exact (means_compare path nonnull).2.1
      · cases literal <;> rfl
  | le =>
      refine ((orderOperand_verdict path "$lte" literal).map ?_).of_eq ?_
      · intro operand found
        rcases found with ⟨rfl, nonnull⟩
        exact (means_compare path nonnull).2.2.2
      · cases literal <;> rfl
  | oneOf | noneOf | not => cases literal <;> exact Verdict.rejected _
  | presence =>
      cases literal with
      | bool expected =>
          apply Verdict.accepted
          cases expected <;> exact ⟨trivial, fun _ => rfl⟩
      | null | number _ | string _ => exact Verdict.rejected _
  | unknown other =>
      refine (Verdict.rejected _).of_eq ?_
      simp only [operatorKeys, List.mem_cons, List.not_mem_nil, or_false, not_or] at other
      cases literal <;> simp [Scalar.toJson, acceptsOperator, other]

theorem ofFieldEntry_array (path : FieldPath) (key : String) (elements : List Json) :
    Verdict (fun condition => condition.Means fun document =>
        passesOperator (document.lookup? path) key (.array elements))
      (ofFieldEntry path key (.array elements)) (acceptsOperator key (.array elements)) := by
  have view := operatorKey key
  have literals (operator : String) := scalarOperands_verdict path operator elements
  rw [ofFieldEntry.eq_def]
  generalize FieldOperator.ofKey? key = operator at view
  cases view with
  | oneOf =>
      refine ((literals "$in").map ?_).of_eq ?_
      · rintro operands rfl
        exact means_oneOf path operands
      · simp [acceptsOperator]
  | noneOf =>
      refine ((literals "$nin").map ?_).of_eq ?_
      · rintro operands rfl
        exact (means_oneOf path operands).not
      · simp [acceptsOperator]
  | eq | ne | gt | ge | lt | le | presence | not => exact Verdict.rejected _
  | unknown other =>
      refine (Verdict.rejected _).of_eq ?_
      simp only [operatorKeys, List.mem_cons, List.not_mem_nil, or_false, not_or] at other
      simp [acceptsOperator, other]

theorem checkOperators_verdict (path : FieldPath) (keys : List String) :
    Verdict (fun _ => True) (checkOperators path keys)
      (!keys.isEmpty && keys.all isOperatorKey) := by
  unfold checkOperators
  cases keys with
  | nil => exact Verdict.rejected _
  | cons key rest =>
      by_cases plain : (key :: rest).all (!isOperatorKey ·) = true
      · rw [if_pos plain]
        refine (Verdict.rejected _).of_eq ?_
        have first : isOperatorKey key = false := by
          simpa using List.all_eq_true.1 plain key (by simp)
        simp [first]
      · rw [if_neg plain]
        by_cases operators : (key :: rest).all isOperatorKey = true
        · rw [if_pos operators, operators]
          exact Verdict.accepted trivial
        · rw [if_neg operators, Bool.eq_false_iff.2 operators]
          exact Verdict.rejected _

theorem isOperatorKey_of_acceptsOperator {key : String} {operand : Json}
    (accepted : acceptsOperator key operand = true) : isOperatorKey key = true := by
  have operator (keys : List String) (sound : keys.all isOperatorKey = true)
      (member : keys.contains key = true) : isOperatorKey key = true := by
    exact List.all_eq_true.1 sound key (List.contains_iff_mem.1 member)
  cases operand with
  | object fields =>
      simp only [acceptsOperator, Bool.and_eq_true, beq_iff_eq] at accepted
      rw [accepted.1.1]
      rfl
  | array elements =>
      simp only [acceptsOperator, Bool.and_eq_true] at accepted
      exact operator ["$in", "$nin"] rfl accepted.1
  | null => exact operator ["$eq", "$ne"] rfl accepted
  | bool _ =>
      exact operator ["$eq", "$ne", "$gt", "$gte", "$lt", "$lte", "$exists"] rfl accepted
  | number _ | string _ =>
      exact operator ["$eq", "$ne", "$gt", "$gte", "$lt", "$lte"] rfl accepted

theorem all_isOperatorKey_of_acceptsOperators {entries : List (String × Json)}
    (accepted : acceptsOperators entries = true) :
    (entries.map (·.1)).all isOperatorKey = true := by
  induction entries with
  | nil => rfl
  | cons entry rest ih =>
      simp only [acceptsOperators, Bool.and_eq_true] at accepted
      simp only [List.map_cons, List.all_cons, Bool.and_eq_true]
      exact ⟨isOperatorKey_of_acceptsOperator accepted.1, ih accepted.2⟩

/-- The check of the keys refuses nothing but the empty object that the check
of the operators would not refuse. -/
theorem checked_eq (entries : List (String × Json)) :
    ((!(entries.map (·.1)).isEmpty && (entries.map (·.1)).all isOperatorKey) &&
      acceptsOperators entries) = (!entries.isEmpty && acceptsOperators entries) := by
  cases accepted : acceptsOperators entries with
  | false => simp
  | true => simp [all_isOperatorKey_of_acceptsOperators accepted]

mutual

theorem ofFieldEntries_verdict (path : FieldPath) (entries : List (String × Json)) :
    Verdict (fun parts => AllMean parts fun document =>
        passesAll (document.lookup? path) entries)
      (ofFieldEntries path entries) (acceptsOperators entries) := by
  match entries with
  | [] => exact Verdict.accepted AllMean.nil
  | (key, operand) :: rest =>
      rw [ofFieldEntries, acceptsOperators]
      apply (ofFieldEntry_verdict path key operand).combine (ofFieldEntries_verdict path rest)
      intro part parts first others
      exact AllMean.cons first others

theorem ofFieldEntry_verdict (path : FieldPath) (key : String) (operand : Json) :
    Verdict (fun condition => condition.Means fun document =>
        passesOperator (document.lookup? path) key operand)
      (ofFieldEntry path key operand) (acceptsOperator key operand) := by
  match operand with
  | .null => exact ofFieldEntry_literal path key .null
  | .bool value => exact ofFieldEntry_literal path key (.bool value)
  | .number value => exact ofFieldEntry_literal path key (.number value)
  | .string value => exact ofFieldEntry_literal path key (.string value)
  | .array elements => exact ofFieldEntry_array path key elements
  | .object ⟨entries⟩ =>
      have inner := ofFieldEntries_verdict path entries
      have view := operatorKey key
      rw [ofFieldEntry.eq_def]
      generalize FieldOperator.ofKey? key = operator at view
      cases view with
      | not =>
          have checked := checkOperators_verdict path (entries.map (·.1))
          refine (checked.bind fun _ _ => inner.map ?_).of_eq ?_
          · intro parts sound
            exact sound.conjunction.not
          · rw [checked_eq]
            simp [acceptsOperator]
      | eq | ne | gt | ge | lt | le | oneOf | noneOf | presence => exact Verdict.rejected _
      | unknown other =>
          refine (Verdict.rejected _).of_eq ?_
          simp only [operatorKeys, List.mem_cons, List.not_mem_nil, or_false, not_or] at other
          simp [acceptsOperator, other]

end

/-! ## Match documents -/

/-- The logical operator of a key, by the key. -/
inductive LogicalKey : String → Option LogicalOperator → Prop where
  | all : LogicalKey "$and" (some (.junction .all))
  | any : LogicalKey "$or" (some (.junction .any))
  | not : LogicalKey "$not" (some .negation)
  | field {key : String} (other : key ≠ "$and" ∧ key ≠ "$or" ∧ key ≠ "$not") : LogicalKey key none

theorem logicalKey (key : String) : LogicalKey key (LogicalOperator.ofKey? key) := by
  by_cases isAll : key = "$and"
  · subst isAll
    exact .all
  · by_cases isAny : key = "$or"
    · subst isAny
      exact .any
    · by_cases isNot : key = "$not"
      · subst isNot
        exact .not
      · have none : LogicalOperator.ofKey? key = none := by
          simp [LogicalOperator.ofKey?, isAll, isAny, isNot]
        rw [none]
        exact .field ⟨isAll, isAny, isNot⟩

/-- A field is checked for a dollar sign before its path is read, which the
path may not begin with either. -/
theorem field_verdict {property : Condition → Prop} {rest : FieldPath → Except Error Condition}
    {accepted : Bool} (key : String)
    (sound : ∀ path : FieldPath, path.segments = (FieldPath.partsOf key).map String.ofList →
      Verdict property (rest path) accepted) :
    Verdict property
      (if isOperatorKey key then throw (FilterError.unknownLogical key : Error)
        else FieldPath.parse key >>= rest)
      (FieldPath.isPath key && accepted) := by
  refine (Verdict.ite fun _ => (FieldPath.parse_verdict key).bind sound).of_eq ?_
  cases operator : isOperatorKey key with
  | false => simp
  | true =>
      have begins : key.toList.head? = some '$' := by simpa [isOperatorKey] using operator
      simp [FieldPath.isPath, begins]

theorem ofEntry_literal (key : String) (literal : Scalar) :
    Verdict (fun condition => condition.Means fun document =>
        equalTo (valueAt document key) literal.toJson)
      (ofEntry key literal.toJson) (FieldPath.isPath key) := by
  have field (path : FieldPath) (segments : path.segments =
      (FieldPath.partsOf key).map String.ofList) :
      Verdict (fun condition => condition.Means fun document =>
          equalTo (valueAt document key) literal.toJson)
        (pure (equal path literal)) true := by
    apply Verdict.pure
    have means := means_equal path literal
    simp only [Document.lookup?, segments] at means
    exact means
  have view := logicalKey key
  rw [ofEntry.eq_def]
  generalize LogicalOperator.ofKey? key = operator at view
  cases view with
  | all | any | not => cases literal <;> exact Verdict.rejected _
  | field other =>
      rw [← Bool.and_true (FieldPath.isPath key)]
      cases literal <;> exact field_verdict key field

/-- The conditions of a list are as many as its elements, and mean the
conjunction of the elements as well as their disjunction. -/
structure ListMeans (parts : List Condition) (documents : List Json) : Prop where
  length_eq : parts.length = documents.length
  regular : AllRegular parts
  all_eq : ∀ document, allHold document parts = selectsAll document documents
  any_eq : ∀ document, anyHolds document parts = selectsAny document documents

theorem ListMeans.ne_nil {parts : List Condition} {documents : List Json}
    (sound : ListMeans parts documents) (nonempty : documents ≠ []) : parts ≠ [] := by
  rintro rfl
  exact nonempty (List.length_eq_zero_iff.1 sound.length_eq.symm)

mutual

theorem ofEntries_verdict (entries : List (String × Json)) :
    Verdict (fun parts => AllMean parts fun document => selects document entries)
      (ofEntries entries) (accepts entries) := by
  match entries with
  | [] => exact Verdict.accepted AllMean.nil
  | (key, value) :: rest =>
      rw [ofEntries, accepts]
      apply (ofEntry_verdict key value).combine (ofEntries_verdict rest)
      intro part parts first others
      exact AllMean.cons first others

theorem ofEntry_verdict (key : String) (value : Json) :
    Verdict (fun condition => condition.Means fun document => selectsEntry document key value)
      (ofEntry key value) (acceptsEntry key value) := by
  match value with
  | .null => exact ofEntry_literal key .null
  | .bool value => exact ofEntry_literal key (.bool value)
  | .number value => exact ofEntry_literal key (.number value)
  | .string value => exact ofEntry_literal key (.string value)
  | .array elements =>
      have list := ofDocuments_verdict key elements
      have view := logicalKey key
      rw [ofEntry.eq_def]
      generalize LogicalOperator.ofKey? key = operator at view
      cases view with
      | all =>
          refine (Verdict.ite fun nonempty => list.map ?_).of_eq
            (by cases elements <;> simp [acceptsEntry])
          intro parts sound
          exact ⟨⟨sound.ne_nil (by simpa using nonempty), sound.regular⟩, sound.all_eq⟩
      | any =>
          refine (Verdict.ite fun nonempty => list.map ?_).of_eq
            (by cases elements <;> simp [acceptsEntry])
          intro parts sound
          exact ⟨⟨sound.ne_nil (by simpa using nonempty), sound.regular⟩, sound.any_eq⟩
      | not => exact Verdict.rejected _
      | field other =>
          have refused : acceptsEntry key (.array elements) = false := by
            simp [acceptsEntry, other]
          rw [refused, ← Bool.and_false (FieldPath.isPath key)]
          exact field_verdict key fun path _ => Verdict.rejected _
  | .object ⟨entries⟩ =>
      have view := logicalKey key
      have inner := ofEntries_verdict entries
      rw [ofEntry.eq_def]
      generalize LogicalOperator.ofKey? key = operator at view
      cases view with
      | all | any => exact Verdict.rejected _
      | not =>
          apply inner.map
          intro parts sound
          exact sound.conjunction.not
      | field other =>
          have accepted : acceptsEntry key (.object ⟨entries⟩) =
              (FieldPath.isPath key && (!entries.isEmpty && acceptsOperators entries)) := by
            simp [acceptsEntry, other, Bool.and_assoc]
          rw [accepted, ← checked_eq]
          apply field_verdict
          intro path segments
          have checked := checkOperators_verdict path (entries.map (·.1))
          refine checked.bind fun _ _ => (ofFieldEntries_verdict path entries).map ?_
          intro parts sound
          have value (document : Document) : valueAt document key = document.lookup? path := by
            rw [valueAt, Document.lookup?, segments]
          have means := sound.conjunction
          simpa [selectsEntry, other, value] using means

theorem ofDocuments_verdict (operator : String) (documents : List Json) :
    Verdict (fun parts => ListMeans parts documents) (ofDocuments operator documents)
      (acceptsAll documents) := by
  match documents with
  | [] => exact Verdict.accepted ⟨rfl, trivial, fun _ => rfl, fun _ => rfl⟩
  | .object ⟨entries⟩ :: rest =>
      rw [ofDocuments, acceptsAll]
      apply (ofEntries_verdict entries).combine (ofDocuments_verdict operator rest)
      intro parts others first more
      have means := first.conjunction
      constructor
      · simp [more.length_eq]
      · exact ⟨means.regular, more.regular⟩
      · intro document
        rw [allHold, selectsAll, means.holds_eq, more.all_eq]
      · intro document
        rw [anyHolds, selectsAny, means.holds_eq, more.any_eq]
  | .null :: _ | .bool _ :: _ | .number _ :: _ | .string _ :: _ | .array _ :: _ =>
      exact Verdict.rejected _

end

theorem ofDocument_verdict (filter : Document) :
    Verdict (fun condition => condition.Means fun document => selects document filter.entries)
      (ofDocument filter) (accepts filter.entries) := by
  apply (ofEntries_verdict filter.entries).map
  intro parts sound
  exact sound.conjunction

/-- A condition that has been read compares nothing with null and joins no empty list. -/
theorem regular_of_ofDocument {filter : Document} {condition : Condition}
    (read : ofDocument filter = .ok condition) : condition.Regular :=
  ((ofDocument_verdict filter).of_ok read).regular

/-- A match document is read exactly if it is accepted, and the condition that
it becomes holds exactly of the documents that it matches. -/
theorem ofDocument_iff (filter : Document) :
    ((∃ condition, ofDocument filter = .ok condition) ↔ accepts filter.entries = true) ∧
      ∀ condition, ofDocument filter = .ok condition →
        ∀ document, condition.holds document = selects document filter.entries := by
  have verdict := ofDocument_verdict filter
  constructor
  · exact verdict.exists_ok_iff
  · intro condition read document
    exact (verdict.of_ok read).holds_eq document

/-- An age other than null that is greater than one: two is, and a missing age is not. -/
theorem ofDocument_iff_of_age :
    ∃ condition, ofDocument ⟨[("age", .object ⟨[("$ne", .null),
        ("$gt", .number (.integer 1 (by decide)))]⟩)]⟩ = .ok condition ∧
      condition.holds ⟨[("age", .number (.integer 2 (by decide)))]⟩ = true ∧
        condition.holds ∅ = false := by
  have equivalence := ofDocument_iff ⟨[("age", .object ⟨[("$ne", .null),
    ("$gt", .number (.integer 1 (by decide)))]⟩)]⟩
  rcases equivalence with ⟨accepted, meaning⟩
  rcases accepted.2 rfl with ⟨condition, read⟩
  refine ⟨condition, read, ?_, ?_⟩
  · rw [meaning condition read]
    rfl
  · rw [meaning condition read]
    rfl

end Condition

end DocTable
