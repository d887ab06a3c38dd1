import DocTable.Proofs.Filter.Meaning

/-!
# Literals of match documents

A match document in which every literal has become a fixed one of its type
tells all about the document but the values that it compares with. Reading it
gives the condition of the document with the literals blanked in the same way,
since the reader looks at the type of a literal and at nothing else.
-/

namespace DocTable

/-- The second computation returns the image of whatever the first one returns. -/
def Images {α β : Type} (change : α → β) (first : Except Error α) (second : Except Error β) :
    Prop :=
  ∀ value, first = .ok value → second = .ok (change value)

namespace Images

variable {α β γ δ : Type} {change : α → β} {next : γ → δ}
variable {first : Except Error α} {second : Except Error β}

theorem pure {value : α} {image : β} (same : image = change value) :
    Images change (Pure.pure value) (Pure.pure image) := by
  intro result returned
  cases returned
  rw [same]
  rfl

theorem throw (error : Error) : Images change (MonadExcept.throw error) second := by
  intro value returned
  cases returned

theorem bind {step : α → Except Error γ} {other : β → Except Error δ}
    (head : Images change first second)
    (tail : ∀ value, Images next (step value) (other (change value))) :
    Images next (first >>= step) (second >>= other) := by
  cases first with
  | error error => exact throw error
  | ok value =>
      rw [head value rfl]
      exact tail value

theorem map {step : α → γ} {other : β → δ} (head : Images change first second)
    (same : ∀ value, other (change value) = next (step value)) :
    Images next (step <$> first) (other <$> second) := by
  cases first with
  | error error => exact throw error
  | ok value =>
      rw [head value rfl]
      exact pure (same value)

/-- The same computation in front of both. -/
theorem after {step : α → Except Error γ} {other : α → Except Error δ}
    (tail : ∀ value, Images next (step value) (other value)) :
    Images next (first >>= step) (first >>= other) := by
  cases first with
  | error error => exact throw error
  | ok value => exact tail value

end Images

/-- The literal that stands for all of its type. -/
def Scalar.blank : Scalar → Scalar
  | .null => .null
  | .bool _ => .bool false
  | .number _ => .number (.integer 0 (by decide))
  | .string _ => .string ""

@[simp] theorem Scalar.kind?_blank (literal : Scalar) : literal.blank.kind? = literal.kind? := by
  cases literal <;> rfl

@[simp] theorem Scalar.blank_eq_null_iff {literal : Scalar} :
    literal.blank = .null ↔ literal = .null := by
  cases literal <;> simp [Scalar.blank]

namespace MatchDocument

mutual

/-- A value in a match document with blank literals. -/
def blank : Json → Json
  | .null => .null
  | .bool value => (Scalar.bool value).blank.toJson
  | .number value => (Scalar.number value).blank.toJson
  | .string value => (Scalar.string value).blank.toJson
  | .array elements => .array (blankElements elements)
  | .object ⟨entries⟩ => .object ⟨blankEntries entries⟩

/-- The elements of a list with blank literals. -/
def blankElements : List Json → List Json
  | [] => []
  | element :: rest => blank element :: blankElements rest

/-- Entries with blank literals. The truth value under `$exists` is none. -/
def blankEntries : List (String × Json) → List (String × Json)
  | [] => []
  | (key, value) :: rest => (key, if key = "$exists" then value else blank value) ::
      blankEntries rest

end

/-- The operand of an operator with blank literals. -/
def blankOperand (key : String) (operand : Json) : Json :=
  if key = "$exists" then operand else blank operand

/-- Whether two match documents differ in nothing but the values of their
literals. -/
def Alike (left right : Document) : Prop :=
  blankEntries left.entries = blankEntries right.entries

theorem blankElements_eq_map (elements : List Json) :
    blankElements elements = elements.map blank := by
  induction elements with
  | nil => rfl
  | cons element rest ih => rw [blankElements, ih, List.map_cons]

theorem keys_blankEntries (entries : List (String × Json)) :
    (blankEntries entries).map (·.1) = entries.map (·.1) := by
  induction entries with
  | nil => rfl
  | cons entry rest ih => rw [blankEntries, List.map_cons, List.map_cons, ih]

end MatchDocument

namespace Condition

mutual

/-- A condition with blank literals. -/
def blank : Condition → Condition
  | .all parts => .all (blankAll parts)
  | .any parts => .any (blankAll parts)
  | .not part => .not (blank part)
  | .oneOf path literals => .oneOf path (literals.map Scalar.blank)
  | .compare path comparison literal => .compare path comparison literal.blank
  | .always => .always
  | .exists path expected => .exists path expected
  | .isNull path => .isNull path

/-- Conditions with blank literals. -/
def blankAll : List Condition → List Condition
  | [] => []
  | part :: rest => blank part :: blankAll rest

end

theorem blank_join (kind : Junction) (parts : List Condition) :
    (kind.join parts).blank = kind.join (blankAll parts) := by
  cases kind <;> rw [Junction.join, blank]

theorem blank_conjunction (parts : List Condition) :
    (conjunction parts).blank = conjunction (blankAll parts) := by
  match parts with
  | [] => rfl
  | [part] => rfl
  | part :: next :: rest => rfl

theorem blank_equal (path : FieldPath) (literal : Scalar) :
    (equal path literal).blank = equal path literal.blank := by
  cases literal <;> rfl

open MatchDocument

variable (path : FieldPath)

theorem scalarOperand_images (operator : String) (operand : Json) :
    Images Scalar.blank (scalarOperand path operator operand)
      (scalarOperand path operator (MatchDocument.blank operand)) := by
  cases operand with
  | null | bool _ | number _ | string _ => exact Images.pure rfl
  | array _ => exact Images.throw _
  | object _ => exact Images.throw _

theorem scalarOperands_images (operator : String) (operand : Json) :
    Images (List.map Scalar.blank) (scalarOperands path operator operand)
      (scalarOperands path operator (MatchDocument.blank operand)) := by
  cases operand with
  | null | bool _ | number _ | string _ | object _ => exact Images.throw _
  | array elements =>
      rw [MatchDocument.blank, scalarOperands, scalarOperands, blankElements_eq_map]
      induction elements with
      | nil => exact Images.pure rfl
      | cons element rest ih =>
          rw [List.map_cons, List.mapM_cons, List.mapM_cons]
          apply (scalarOperand_images path operator element).bind
          intro literal
          apply ih.bind
          intro literals
          exact Images.pure rfl

theorem orderOperand_images (operator : String) (operand : Json) :
    Images Scalar.blank (orderOperand path operator operand)
      (orderOperand path operator (MatchDocument.blank operand)) := by
  apply (scalarOperand_images path operator operand).bind
  intro literal
  cases literal with
  | null => exact Images.throw _
  | bool _ | number _ | string _ => exact Images.pure rfl

/-- An object of operators. -/
theorem operators_images {entries : List (String × Json)} {join : List Condition → Condition}
    (inner : Images blankAll (ofFieldEntries path entries)
      (ofFieldEntries path (blankEntries entries)))
    (same : ∀ parts, join (blankAll parts) = (join parts).blank) :
    Images blank
      (do checkOperators path (entries.map (·.1)); join <$> ofFieldEntries path entries)
      (do
        checkOperators path ((blankEntries entries).map (·.1))
        join <$> ofFieldEntries path (blankEntries entries)) := by
  rw [keys_blankEntries]
  exact Images.after fun _ => inner.map same

/-- An operator, the operands of which have been dealt with if there are operators
in it. -/
theorem ofFieldEntry_images_of_inner (key : String) (operand : Json)
    (inner : ∀ entries, operand = .object ⟨entries⟩ →
      Images blankAll (ofFieldEntries path entries) (ofFieldEntries path (blankEntries entries))) :
    Images blank (ofFieldEntry path key operand)
      (ofFieldEntry path key (blankOperand key operand)) := by
  have view := operatorKey key
  rw [ofFieldEntry.eq_def, ofFieldEntry.eq_def]
  generalize FieldOperator.ofKey? key = operator at view
  cases view with
  | eq =>
      apply (scalarOperand_images path "$eq" operand).map
      intro literal
      exact (blank_equal path literal).symm
  | ne =>
      apply (scalarOperand_images path "$ne" operand).map
      intro literal
      exact congrArg Condition.not (blank_equal path literal).symm
  | gt => exact (orderOperand_images path "$gt" operand).map fun _ => rfl
  | ge => exact (orderOperand_images path "$gte" operand).map fun _ => rfl
  | lt => exact (orderOperand_images path "$lt" operand).map fun _ => rfl
  | le => exact (orderOperand_images path "$lte" operand).map fun _ => rfl
  | oneOf => exact (scalarOperands_images path "$in" operand).map fun _ => rfl
  | noneOf => exact (scalarOperands_images path "$nin" operand).map fun _ => rfl
  | presence =>
      cases operand with
      | bool expected => exact Images.pure rfl
      | null | number _ | string _ | array _ | object _ => exact Images.throw _
  | not =>
      cases operand with
      | object fields =>
          rcases fields with ⟨entries⟩
          apply operators_images path (inner entries rfl)
          intro parts
          exact congrArg Condition.not (blank_conjunction parts).symm
      | null | bool _ | number _ | string _ | array _ => exact Images.throw _
  | unknown other => exact Images.throw _

mutual

theorem ofFieldEntries_images (entries : List (String × Json)) :
    Images blankAll (ofFieldEntries path entries) (ofFieldEntries path (blankEntries entries)) := by
  match entries with
  | [] => exact Images.pure rfl
  | (key, operand) :: rest =>
      rw [blankEntries, ofFieldEntries, ofFieldEntries]
      apply (ofFieldEntry_images key operand).bind
      intro part
      apply (ofFieldEntries_images rest).bind
      intro parts
      exact Images.pure rfl

theorem ofFieldEntry_images (key : String) (operand : Json) :
    Images blank (ofFieldEntry path key operand)
      (ofFieldEntry path key (blankOperand key operand)) := by
  apply ofFieldEntry_images_of_inner
  match operand with
  | .object ⟨own⟩ =>
      intro entries same
      cases same
      exact ofFieldEntries_images own
  | .null | .bool _ | .number _ | .string _ | .array _ => nofun

end

/-! ## Match documents -/

/-- An entry of a match document, the documents in which have been dealt with. -/
theorem ofEntry_images_of_inner (key : String) (value : Json)
    (listed : ∀ elements, value = .array elements →
      Images blankAll (ofDocuments key elements) (ofDocuments key (blankElements elements)))
    (negated : ∀ entries, value = .object ⟨entries⟩ →
      Images blankAll (ofEntries entries) (ofEntries (blankEntries entries))) :
    Images blank (ofEntry key value) (ofEntry key (MatchDocument.blank value)) := by
  rw [ofEntry.eq_def, ofEntry.eq_def]
  generalize LogicalOperator.ofKey? key = operator
  cases operator with
  | some operator =>
      cases operator with
      | junction kind =>
          cases value with
          | array elements =>
              cases elements with
              | nil => exact Images.throw _
              | cons first rest =>
                  apply (listed _ rfl).map
                  intro parts
                  exact (blank_join kind parts).symm
          | null | bool _ | number _ | string _ | object _ => exact Images.throw _
      | negation =>
          cases value with
          | object fields =>
              apply (negated fields.entries rfl).map
              intro parts
              exact congrArg Condition.not (blank_conjunction parts).symm
          | null | bool _ | number _ | string _ | array _ => exact Images.throw _
  | none =>
      by_cases dollar : isOperatorKey key = true
      · simp only [dollar, if_true]
        exact Images.throw _
      · simp only [dollar]
        apply Images.after
        intro path
        cases value with
        | object fields =>
            apply operators_images path (ofFieldEntries_images path fields.entries)
            intro parts
            exact (blank_conjunction parts).symm
        | array elements => exact Images.throw _
        | null | bool _ | number _ | string _ => exact Images.pure rfl

mutual

theorem ofEntries_images (entries : List (String × Json)) :
    Images blankAll (ofEntries entries) (ofEntries (blankEntries entries)) := by
  match entries with
  | [] => exact Images.pure rfl
  | (key, value) :: rest =>
      rw [blankEntries, ofEntries, ofEntries]
      have head : Images blank (ofEntry key value) (ofEntry key (blankOperand key value)) := by
        by_cases existence : key = "$exists"
        · subst existence
          rw [ofEntry.eq_def]
          exact Images.throw _
        · rw [blankOperand, if_neg existence]
          exact ofEntry_images key value
      apply head.bind
      intro part
      apply (ofEntries_images rest).bind
      intro parts
      exact Images.pure rfl

theorem ofEntry_images (key : String) (value : Json) :
    Images blank (ofEntry key value) (ofEntry key (MatchDocument.blank value)) := by
  apply ofEntry_images_of_inner
  · match value with
    | .array own =>
        intro elements same
        cases same
        exact ofDocuments_images key own
    | .null | .bool _ | .number _ | .string _ | .object _ => nofun
  · match value with
    | .object ⟨own⟩ =>
        intro entries same
        cases same
        exact ofEntries_images own
    | .null | .bool _ | .number _ | .string _ | .array _ => nofun

theorem ofDocuments_images (operator : String) (documents : List Json) :
    Images blankAll (ofDocuments operator documents)
      (ofDocuments operator (blankElements documents)) := by
  match documents with
  | [] => exact Images.pure rfl
  | .object ⟨entries⟩ :: rest =>
      rw [blankElements, MatchDocument.blank, ofDocuments, ofDocuments]
      apply (ofEntries_images entries).bind
      intro parts
      apply (ofDocuments_images operator rest).bind
      intro others
      apply Images.pure
      rw [blankAll, blank_conjunction]
  | .null :: _ | .bool _ :: _ | .number _ :: _ | .string _ :: _ | .array _ :: _ =>
      exact Images.throw _

end

/-- Match documents that are alike are read as conditions that differ in
nothing but their literals. -/
theorem exists_of_alike {left right : Document} (leftAccepted : accepts left.entries = true)
    (rightAccepted : accepts right.entries = true) (alike : Alike left right) :
    ∃ first second, ofDocument left = .ok first ∧ ofDocument right = .ok second ∧
      first.blank = second.blank := by
  have image (filter : Document) : Images blank (ofDocument filter)
      (ofDocument ⟨blankEntries filter.entries⟩) :=
    (ofEntries_images filter.entries).map fun parts => (blank_conjunction parts).symm
  rcases (ofDocument_verdict left).exists_ok_iff.2 leftAccepted with ⟨first, readFirst⟩
  rcases (ofDocument_verdict right).exists_ok_iff.2 rightAccepted with ⟨second, readSecond⟩
  refine ⟨first, second, readFirst, readSecond, ?_⟩
  have blankFirst := image left first readFirst
  rw [alike, image right second readSecond, Except.ok.injEq] at blankFirst
  exact blankFirst.symm

end Condition

end DocTable
