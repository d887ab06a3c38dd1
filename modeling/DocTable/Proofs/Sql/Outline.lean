import DocTable.Plan
import DocTable.Proofs.Filter.Literal
import DocTable.Proofs.Sql.Rendering

/-!
# Outlines of statements

The outline of a statement is its text and the number of its parameters. It is
the same for two match documents that differ in nothing but their literals, and
for two rows that are written or found by different texts: pieces other than
parameters are put together without looking at a bound value.
-/

namespace DocTable

/-- Two computations that fail with the same error or return related values. -/
inductive Agree {α β : Type} (related : α → β → Prop) : Except Error α → Except Error β → Prop where
  | returned {left : α} {right : β} (same : related left right) :
      Agree related (.ok left) (.ok right)
  | failed (error : Error) : Agree related (.error error) (.error error)

namespace Agree

variable {α β γ δ : Type} {related : α → β → Prop} {next : γ → δ → Prop}
variable {first : Except Error α} {second : Except Error β}

theorem pure {left : α} {right : β} (same : related left right) :
    Agree related (Pure.pure left) (Pure.pure right) :=
  returned same

theorem refl {related : α → α → Prop} (same : ∀ value, related value value)
    (computation : Except Error α) : Agree related computation computation := by
  cases computation with
  | ok value => exact returned (same value)
  | error error => exact failed error

theorem bind {step : α → Except Error γ} {other : β → Except Error δ}
    (head : Agree related first second)
    (tail : ∀ left right, related left right → Agree next (step left) (other right)) :
    Agree next (first >>= step) (second >>= other) := by
  cases head with
  | returned same => exact tail _ _ same
  | failed error => exact failed error

/-- The same computation in front of both. -/
theorem after {start : Except Error α} {step : α → Except Error γ} {other : α → Except Error δ}
    (tail : ∀ value, Agree next (step value) (other value)) :
    Agree next (start >>= step) (start >>= other) := by
  cases start with
  | ok value => exact tail value
  | error error => exact failed error

theorem map {step : α → γ} {other : β → δ} (head : Agree related first second)
    (tail : ∀ left right, related left right → next (step left) (other right)) :
    Agree next (step <$> first) (other <$> second) := by
  cases head with
  | returned same => exact returned (tail _ _ same)
  | failed error => exact failed error

/-- Computations agree in a view of their values if it is the same of both. -/
theorem iff_map_eq {view : α → γ} {other : β → γ} :
    Agree (fun left right => view left = other right) first second ↔
      view <$> first = other <$> second := by
  constructor
  · intro agree
    cases agree with
    | returned same => exact congrArg Except.ok same
    | failed error => rfl
  · intro same
    cases first with
    | ok left =>
        cases second with
        | ok right => exact returned (Except.ok.inj same)
        | error error => cases same
    | error error =>
        cases second with
        | ok right => cases same
        | error other =>
            cases same
            exact failed error

end Agree

namespace Sql

/-- What a statement is without the values of its parameters. -/
def Statement.outline (statement : Statement) : String × Nat :=
  (statement.sql, statement.parameters.length)

/-- A piece without the value that it binds. -/
def Piece.blank : Piece → Piece
  | .parameter role _ => .parameter role .null
  | .code text => .code text
  | .identifier name => .identifier name
  | .constant text => .constant text

namespace Fragment

/-- Whether two fragments differ in nothing but the values that they bind. -/
def Alike (first second : Fragment) : Prop := first.map Piece.blank = second.map Piece.blank

theorem chars_blank (dialect : Dialect) (bound : Nat) (fragment : Fragment) :
    chars dialect bound (fragment.map Piece.blank) = chars dialect bound fragment := by
  induction fragment generalizing bound with
  | nil => rfl
  | cons piece rest ih =>
      rw [List.map_cons, chars, chars, ih]
      cases piece <;> rfl

theorem length_parameters_blank (fragment : Fragment) :
    (parameters (fragment.map Piece.blank)).length = fragment.parameters.length := by
  induction fragment with
  | nil => rfl
  | cons piece rest ih =>
      cases piece with
      | parameter role value => exact congrArg Nat.succ ih
      | code _ | identifier _ | constant _ => exact ih

namespace Alike

variable {first second third fourth : Fragment}

theorem refl (fragment : Fragment) : Alike fragment fragment := rfl

theorem outline_eq (dialect : Dialect) (alike : Alike first second) :
    (first.statement dialect).outline = (second.statement dialect).outline := by
  have text : first.text dialect = second.text dialect := by
    rw [Fragment.text, Fragment.text, ← chars_blank, alike, chars_blank]
  have count : first.parameters.length = second.parameters.length := by
    rw [← length_parameters_blank, alike, length_parameters_blank]
  exact Prod.ext text count

theorem agree_of_agree {left right middle : Except Error Fragment}
    (head : Agree Alike left middle) (tail : Agree Alike right middle) :
    Agree Alike left right :=
  Agree.iff_map_eq.2 ((Agree.iff_map_eq.1 head).trans (Agree.iff_map_eq.1 tail).symm)

theorem parameter (role : Role) (value other : Value) :
    Alike [.parameter role value] [.parameter role other] := rfl

theorem append (head : Alike first second) (tail : Alike third fourth) :
    Alike (first ++ third) (second ++ fourth) := by
  rw [Alike, List.map_append, List.map_append, head, tail]

theorem cons (piece : Piece) (tail : Alike first second) :
    Alike (piece :: first) (piece :: second) :=
  append (refl [piece]) tail

theorem parenthesized (inner : Alike first second) :
    Alike (Fragment.parenthesized first) (Fragment.parenthesized second) :=
  cons _ (append inner (refl _))

theorem separated (text : String) {left right : List Fragment}
    (each : List.Forall₂ Alike left right) :
    Alike (Fragment.separated text left) (Fragment.separated text right) := by
  induction each with
  | nil => exact refl _
  | cons head rest ih =>
      cases rest with
      | nil => simpa [Fragment.separated, List.intercalate] using head
      | cons next later =>
          rw [separated_cons_cons, separated_cons_cons]
          exact append head (cons _ ih)

theorem call (name : String) {left right : List Fragment}
    (each : List.Forall₂ Alike left right) :
    Alike (Fragment.call name left) (Fragment.call name right) :=
  cons _ (separated ", " each).parenthesized

theorem followedBy (head : Alike first second) (clause : Fragment) :
    Alike (Fragment.followedBy first clause) (Fragment.followedBy second clause) := by
  unfold Fragment.followedBy
  split
  · exact head
  · exact append head (refl _)

end Alike

end Fragment

open Fragment

namespace Predicate

mutual

/-- A predicate with blank literals. -/
def blank : Predicate → Predicate
  | .constant value => .constant value
  | .all parts => .all (blankAll parts)
  | .any parts => .any (blankAll parts)
  | .negation part => .negation (blank part)
  | .notTrue part => .notTrue (blank part)
  | .present path => .present path
  | .nullOrMissing path => .nullOrMissing path
  | .ofKind path kind => .ofKind path kind
  | .compare path comparison literal => .compare path comparison literal.blank
  | .among path literals => .among path (literals.map Scalar.blank)

/-- Predicates with blank literals. -/
def blankAll : List Predicate → List Predicate
  | [] => []
  | part :: rest => blank part :: blankAll rest

end

theorem blankAll_eq_map (parts : List Predicate) : blankAll parts = parts.map blank := by
  induction parts with
  | nil => rfl
  | cons part rest ih => rw [blankAll, ih, List.map_cons]

theorem literal_alike (dialect : Dialect) (literal other : Scalar) :
    Alike [dialect.literal literal] [dialect.literal other] :=
  Alike.parameter .literal _ _

mutual

/-- The text of a predicate is put together without looking at the values of
its literals. -/
theorem fragment_agrees (dialect : Dialect) (predicate : Predicate) :
    Agree Alike (predicate.fragment dialect) (predicate.blank.fragment dialect) := by
  match predicate with
  | .constant _ | .present _ | .nullOrMissing _ | .ofKind .. => exact Agree.refl Alike.refl _
  | .all parts =>
      apply (fragments_agree dialect parts).bind
      intro left right each
      exact Agree.pure (Alike.separated " AND " each).parenthesized
  | .any parts =>
      apply (fragments_agree dialect parts).bind
      intro left right each
      exact Agree.pure (Alike.separated " OR " each).parenthesized
  | .negation part =>
      apply (fragment_agrees dialect part).bind
      intro left right alike
      exact Agree.pure (alike.parenthesized.cons _)
  | .notTrue part =>
      apply (fragment_agrees dialect part).bind
      intro left right alike
      have falsity : Alike [.code "FALSE"] [.code "FALSE"] := Alike.refl _
      exact Agree.pure ((Alike.call "COALESCE" (.cons alike (.cons falsity .nil))).cons _)
  | .compare path comparison literal =>
      apply (Agree.refl Alike.refl (dialect.extraction path)).bind
      intro left right alike
      cases literal with
      | null => exact Agree.failed _
      | bool _ | number _ | string _ =>
          exact Agree.pure (alike.append ((literal_alike dialect _ _).cons _))
  | .among path literals =>
      apply (Agree.refl Alike.refl (dialect.extraction path)).bind
      intro left right alike
      have each : List.Forall₂ Alike (literals.map ([dialect.literal ·]))
          ((literals.map Scalar.blank).map ([dialect.literal ·])) := by
        simp [List.forall₂_same, literal_alike]
      exact Agree.pure (alike.append ((Alike.separated ", " each).parenthesized.cons _))

theorem fragments_agree (dialect : Dialect) (parts : List Predicate) :
    Agree (List.Forall₂ Alike) (fragments dialect parts) (fragments dialect (blankAll parts)) := by
  match parts with
  | [] => exact Agree.pure .nil
  | part :: rest =>
      apply (fragment_agrees dialect part).bind
      intro left right alike
      apply (fragments_agree dialect rest).bind
      intro lefts rights each
      exact Agree.pure (.cons alike each)

end

theorem guarded_blank (path : FieldPath) (comparison : Comparison) (literal : Scalar) :
    guarded path comparison literal.blank = (guarded path comparison literal).blank := by
  cases literal <;> rfl

theorem kindsOf_blank (literals : List Scalar) :
    kindsOf (literals.map Scalar.blank) = kindsOf literals := by
  rw [kindsOf, kindsOf, List.filterMap_map]
  congr 2
  funext literal
  exact literal.kind?_blank

theorem oneOf_blank (path : FieldPath) (literals : List Scalar) :
    oneOf path (literals.map Scalar.blank) = (oneOf path literals).blank := by
  have null : (literals.map Scalar.blank).contains .null = literals.contains .null := by
    rw [Bool.eq_iff_iff, List.contains_iff_mem, List.contains_iff_mem]
    simp
  have group (kind : ScalarKind) :
      (literals.map Scalar.blank).filter (·.kind? == some kind) =
        (literals.filter (·.kind? == some kind)).map Scalar.blank := by
    rw [List.filter_map]
    congr 2
    funext literal
    simp
  rw [oneOf, oneOf, List.isEmpty_map, null, kindsOf_blank]
  simp only [group]
  split
  · rfl
  · rw [blank, blankAll_eq_map, List.map_append, List.map_map]
    congr 2
    split <;> rfl

end Predicate

end Sql

namespace Condition

mutual

theorem toPredicate_blank (condition : Condition) :
    condition.blank.toPredicate = condition.toPredicate.blank := by
  match condition with
  | .always | .all [] | .any [] | .isNull _ => rfl
  | .exists _ true | .exists _ false => rfl
  | .all (part :: rest) | .any (part :: rest) =>
      rw [blank, blankAll, toPredicate, toPredicate, Sql.Predicate.blank, Sql.Predicate.blankAll,
        toPredicate_blank part, toPredicates_blank rest]
  | .not part => rw [blank, toPredicate, toPredicate, Sql.Predicate.blank, toPredicate_blank part]
  | .oneOf path literals => exact Sql.Predicate.oneOf_blank path literals
  | .compare path comparison literal => exact Sql.Predicate.guarded_blank path comparison literal

theorem toPredicates_blank (conditions : List Condition) :
    toPredicates (blankAll conditions) = Sql.Predicate.blankAll (toPredicates conditions) := by
  match conditions with
  | [] => rfl
  | part :: rest =>
      rw [blankAll, toPredicates, toPredicates, Sql.Predicate.blankAll, toPredicate_blank part,
        toPredicates_blank rest]

end

end Condition

/-! ## Commands -/

namespace Sql

open Fragment

/-- A key without the value that a row is found by. -/
def RowKey.blank : RowKey → RowKey
  | .id _ => .id ""
  | .text _ => .text ""

theorem RowKey.condition_agrees (dialect : Dialect) (key : RowKey) :
    Agree Alike (key.condition dialect) (key.blank.condition dialect) := by
  cases key with
  | id value =>
      apply (Agree.refl Alike.refl (dialect.extraction idPath)).bind
      intro left right alike
      exact Agree.pure (alike.append ((Predicate.literal_alike dialect _ _).cons _))
  | text stored => exact Agree.pure (((Alike.parameter .plain _ _).cons _).cons _)

theorem JsonDialect.mergePatch_alike (dialect : JsonDialect) (column : String)
    {first second : Fragment} (alike : Alike first second) :
    Alike (dialect.mergePatch column first) (dialect.mergePatch column second) := by
  have name : Alike [.identifier column] [.identifier column] := Alike.refl _
  cases dialect with
  | sqlite | mysql => exact Alike.call _ (.cons name (.cons alike .nil))
  | postgres => exact (alike.cons _).cons _

namespace Command

/-- A command without the texts and literals that it binds. -/
def blank : Command → Command
  | .createTable => .createTable
  | .dropTable => .dropTable
  | .select predicate order limit skip => .select predicate.blank order limit skip
  | .count predicate => .count predicate.blank
  | .insert _ => .insert ""
  | .overwrite key _ => .overwrite key.blank ""
  | .patch key _ => .patch key.blank ""
  | .delete key => .delete key.blank
  | .deleteWhere predicate => .deleteWhere predicate.blank

theorem sliced_agrees (dialect : Dialect) (limit skip : Option Nat) {first second : Fragment}
    (rows : Alike first second) (clause : Fragment) :
    Agree Alike
      (do
        let limit ← limit.mapM countParameter
        let skip ← skip.mapM countParameter
        return Fragment.followedBy (Fragment.followedBy first clause) (dialect.slice limit skip))
      (do
        let limit ← limit.mapM countParameter
        let skip ← skip.mapM countParameter
        return Fragment.followedBy (Fragment.followedBy second clause)
          (dialect.slice limit skip)) := by
  apply Agree.after
  intro limit
  apply Agree.after
  intro skip
  exact Agree.pure ((rows.followedBy clause).followedBy _)

/-- The text of a command is put together without looking at what it binds. -/
theorem fragment_agrees (dialect : Dialect) (table : String) (command : Command) :
    Agree Alike (command.fragment dialect table) (command.blank.fragment dialect table) := by
  cases command with
  | createTable | dropTable => exact Agree.refl Alike.refl _
  | select predicate order limit skip =>
      apply (predicate.fragment_agrees dialect).bind
      intro left right alike
      have rows : Alike (.code "SELECT " :: dialect.documentText ++ [.code " FROM ",
          .identifier table, .code " WHERE "] ++ left) _ := Alike.append (Alike.refl _) alike
      have ordered := sliced_agrees dialect limit skip rows
      cases order with
      | none => exact ordered []
      | some terms => exact Agree.after ordered
  | count predicate | deleteWhere predicate =>
      apply (predicate.fragment_agrees dialect).bind
      intro left right alike
      exact Agree.pure (Alike.append (Alike.refl _) alike)
  | insert text => exact Agree.pure rfl
  | overwrite key text =>
      apply (key.condition_agrees dialect).bind
      intro left right alike
      exact Agree.pure (Alike.append rfl alike)
  | patch key text =>
      cases dialect with
      | text => exact Agree.failed _
      | json engine =>
          apply (key.condition_agrees (.json engine)).bind
          intro left right alike
          have merged := engine.mergePatch_alike documentColumn
            (Alike.parameter .document (.text text) (.text ""))
          exact Agree.pure (Alike.append (Alike.append rfl merged) (alike.cons _))
  | delete key =>
      apply (key.condition_agrees dialect).bind
      intro left right alike
      exact Agree.pure (Alike.append (Alike.refl _) alike)

/-- Commands that differ in nothing but what they bind have the same outline. -/
theorem statement_agrees (dialect : Dialect) (table : String) {left right : Command}
    (same : left.blank = right.blank) :
    Agree (fun first second => first.outline = second.outline)
      (left.statement dialect table) (right.statement dialect table) := by
  have middle := right.fragment_agrees dialect table
  rw [← same] at middle
  apply (Alike.agree_of_agree (left.fragment_agrees dialect table) middle).map
  intro first second alike
  exact alike.outline_eq dialect

theorem call_agrees (dialect : Dialect) (table : String) {left right : Command}
    (same : left.blank = right.blank) :
    Agree (fun first second : Call => first.statement.outline = second.statement.outline)
      (left.call dialect table) (right.call dialect table) := by
  apply (statement_agrees dialect table same).bind
  intro first second outline
  exact Agree.pure outline

end Command

end Sql

open Sql

/-- Choices with the same test for the engine, literals aside. -/
structure RowChoice.Alike (first second : RowChoice) : Prop where
  predicate_eq : first.predicate.blank = second.predicate.blank
  isSome_eq : first.rowTest.isSome = second.rowTest.isSome

/-- What a search is without the values of its literals. -/
def FindPlan.outline (plan : FindPlan) :
    (String × Nat) × Option (List SortTerm × Nat × Option Nat) × Option Projection :=
  (plan.call.statement.outline, plan.scan.map fun scan => (scan.sort, scan.skip, scan.limit),
    plan.projection)

section

variable (dialect : Dialect) (table : String) {left right : Document}
variable (leftAccepted : MatchDocument.accepts left.entries = true)
variable (rightAccepted : MatchDocument.accepts right.entries = true)
variable (alike : MatchDocument.Alike left right)

include leftAccepted rightAccepted alike

theorem Filter.choice_agrees :
    Agree RowChoice.Alike (choice dialect (.declarative left))
      (choice dialect (.declarative right)) := by
  rcases Condition.exists_of_alike leftAccepted rightAccepted alike with
    ⟨first, second, readFirst, readSecond, same⟩
  rw [choice, choice, readFirst, readSecond]
  cases dialect with
  | text => exact Agree.pure ⟨rfl, rfl⟩
  | json engine =>
      refine Agree.pure ⟨?_, rfl⟩
      rw [← Condition.toPredicate_blank, same, Condition.toPredicate_blank]

theorem Filter.whereClause_agrees :
    Agree (fun first second : Statement × Option RowTest =>
        (first.1.outline, first.2.isSome) = (second.1.outline, second.2.isSome))
      (whereClause dialect (.declarative left)) (whereClause dialect (.declarative right)) := by
  apply (choice_agrees dialect leftAccepted rightAccepted alike).bind
  intro first second choices
  have middle := second.predicate.fragment_agrees dialect
  rw [← choices.predicate_eq] at middle
  apply (Fragment.Alike.agree_of_agree (first.predicate.fragment_agrees dialect) middle).bind
  intro firstText secondText texts
  apply Agree.pure
  rw [texts.outline_eq dialect, choices.isSome_eq]

theorem Filter.compile_agrees :
    Agree (fun first second : Option Statement =>
        first.map Statement.outline = second.map Statement.outline)
      (compile dialect (.declarative left)) (compile dialect (.declarative right)) := by
  rw [compile_eq_whereClause, compile_eq_whereClause]
  apply (whereClause_agrees dialect leftAccepted rightAccepted alike).bind
  rintro ⟨first, firstTest⟩ ⟨second, secondTest⟩ same
  rw [Prod.mk.injEq] at same
  apply Agree.pure
  simp only [same.2]
  split
  · rfl
  · exact congrArg some same.1

theorem Filter.callWhere?_agrees {command : Predicate → Command}
    (congruent : ∀ first second : Predicate, first.blank = second.blank →
      (command first).blank = (command second).blank) :
    Agree (fun first second : Option Call => first.map (·.statement.outline) =
        second.map (·.statement.outline))
      (callWhere? dialect table command (.declarative left))
      (callWhere? dialect table command (.declarative right)) := by
  apply (choice_agrees dialect leftAccepted rightAccepted alike).bind
  intro first second choices
  simp only [choices.isSome_eq]
  split
  · exact Agree.pure rfl
  · apply (Command.call_agrees dialect table (congruent _ _ choices.predicate_eq)).bind
    intro firstCall secondCall same
    exact Agree.pure (congrArg some same)

theorem FindPlan.build_agrees (options : FindOptions) :
    Agree (fun first second => first.outline = second.outline)
      (build dialect table (.declarative left) options)
      (build dialect table (.declarative right) options) := by
  apply Agree.after
  intro projection
  apply Agree.after
  intro sort
  apply (Filter.choice_agrees dialect leftAccepted rightAccepted alike).bind
  rintro ⟨first, firstTest⟩ ⟨second, secondTest⟩ ⟨predicates, tests⟩
  have select (order : Option (List SortTerm)) (limit skip : Option Nat) :
      (Command.select first order limit skip).blank =
        (Command.select second order limit skip).blank :=
    congrArg (Command.select · order limit skip) predicates
  cases firstTest with
  | none =>
      cases secondTest with
      | none =>
          apply (Command.call_agrees dialect table (select _ _ _)).bind
          intro firstCall secondCall same
          exact Agree.pure (congrArg (·, none, projection) same)
      | some test => cases tests
  | some test =>
      cases secondTest with
      | none => cases tests
      | some other =>
          apply (Command.call_agrees dialect table (select _ _ _)).bind
          intro firstCall secondCall same
          exact Agree.pure (congrArg (·, some (sort, _, _), projection) same)

end

/-- Match documents that differ in the values of their literals alone have the
same statements, as have rows that are written and found by whatever texts. -/
theorem Sql.outline_eq_of_alike (dialect : Dialect) (table : String) :
    (∀ left right : Document, MatchDocument.accepts left.entries = true →
      MatchDocument.accepts right.entries = true → MatchDocument.Alike left right →
        Option.map Statement.outline <$> Filter.compile dialect (.declarative left) =
          Option.map Statement.outline <$> Filter.compile dialect (.declarative right) ∧
        (fun clause => (clause.1.outline, clause.2.isSome)) <$>
            Filter.whereClause dialect (.declarative left) =
          (fun clause => (clause.1.outline, clause.2.isSome)) <$>
            Filter.whereClause dialect (.declarative right) ∧
        (∀ options, FindPlan.outline <$> FindPlan.build dialect table (.declarative left) options =
          FindPlan.outline <$> FindPlan.build dialect table (.declarative right) options) ∧
        ∀ command, command = .count ∨ command = .deleteWhere →
          Option.map (·.statement.outline) <$>
              Filter.callWhere? dialect table command (.declarative left) =
            Option.map (·.statement.outline) <$>
              Filter.callWhere? dialect table command (.declarative right)) ∧
    (∀ text other, Statement.outline <$> (Command.insert text).statement dialect table =
      Statement.outline <$> (Command.insert other).statement dialect table) ∧
    ∀ key otherKey : RowKey, key.blank = otherKey.blank →
      Statement.outline <$> (Command.delete key).statement dialect table =
        Statement.outline <$> (Command.delete otherKey).statement dialect table ∧
      ∀ text other,
        Statement.outline <$> (Command.overwrite key text).statement dialect table =
          Statement.outline <$> (Command.overwrite otherKey other).statement dialect table ∧
        Statement.outline <$> (Command.patch key text).statement dialect table =
          Statement.outline <$> (Command.patch otherKey other).statement dialect table := by
  have statements {left right : Command} (same : left.blank = right.blank) :=
    Agree.iff_map_eq.1 (Command.statement_agrees dialect table same)
  refine ⟨?_, ?_, ?_⟩
  · intro left right leftAccepted rightAccepted alike
    refine ⟨?_, ?_, ?_, ?_⟩
    · exact Agree.iff_map_eq.1 (Filter.compile_agrees dialect leftAccepted rightAccepted alike)
    · exact Agree.iff_map_eq.1 (Filter.whereClause_agrees dialect leftAccepted rightAccepted alike)
    · intro options
      exact Agree.iff_map_eq.1
        (FindPlan.build_agrees dialect table leftAccepted rightAccepted alike options)
    · rintro command (rfl | rfl)
      · exact Agree.iff_map_eq.1 (Filter.callWhere?_agrees dialect table leftAccepted rightAccepted
          alike fun first second same => congrArg Command.count same)
      · exact Agree.iff_map_eq.1 (Filter.callWhere?_agrees dialect table leftAccepted rightAccepted
          alike fun first second same => congrArg Command.deleteWhere same)
  · intro text other
    exact statements rfl
  · intro key otherKey same
    refine ⟨statements (congrArg Command.delete same), ?_⟩
    intro text other
    exact ⟨statements (congrArg (Command.overwrite · "") same),
      statements (congrArg (Command.patch · "") same)⟩

/-- The text for a name is that for a name that holds SQL, in a filter and in a key. -/
theorem Sql.outline_eq_of_alike_of_name :
    Option.map Statement.outline <$> Filter.compile (.json .mysql)
        (.declarative ⟨[("name", .object ⟨[("$in", .array [.string "x", .null])]⟩)]⟩) =
      Option.map Statement.outline <$> Filter.compile (.json .mysql)
        (.declarative ⟨[("name", .object ⟨[("$in", .array [.string "' OR 1 = 1", .null])]⟩)]⟩) ∧
    Statement.outline <$> (Command.delete (.id "x")).statement (.json .mysql) "t" =
      Statement.outline <$> (Command.delete (.id "' OR 1 = 1")).statement (.json .mysql) "t" := by
  have independent := outline_eq_of_alike (.json .mysql) "t"
  exact ⟨(independent.1 _ _ rfl rfl rfl).1, (independent.2.2 (.id "x") (.id "' OR 1 = 1") rfl).1⟩

end DocTable
