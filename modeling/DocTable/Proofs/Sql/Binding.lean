import DocTable.Proofs.Sql.Placeholder
import DocTable.Proofs.Sql.Reading
import DocTable.Proofs.Verdict
import DocTable.Sql.Command

/-!
# What statements bind

Every part of a statement is spaced and binds known values in a known order:
the literals of a predicate from left to right, then a limit and what is to be
skipped, or the text of a document and then the key of its row. The facts
follow the steps in which the text is put together.
-/

namespace DocTable.Sql

namespace Fragment

/-- The pieces are spaced, and their parameters are these values. -/
structure Binds (values : List Value) (fragment : Fragment) : Prop where
  spaced : fragment.isSpaced = true
  parameters_eq : fragment.parameters = values

namespace Binds

variable {values left right : List Value} {first second : Fragment} {text : String}

theorem nil : Binds [] [] := ⟨rfl, rfl⟩

theorem code (sound : (Piece.code text).isSound = true) : Binds [] [.code text] := by
  constructor
  · simp [isSpaced, sound, opens]
  · rfl

theorem identifier (name : String) : Binds [] [.identifier name] := ⟨rfl, rfl⟩

theorem constant (plain : '\\' ∉ text.toList) : Binds [] [.constant text] := by
  constructor
  · simp [isSpaced, Piece.isSound, opens, plain]
  · rfl

theorem parameter (role : Role) (value : Value) : Binds [value] [.parameter role value] :=
  ⟨rfl, rfl⟩

/-- Code that begins with a delimiter may stand behind any fragment. -/
theorem append_code (head : Binds left first) (delimited : beginsDelimited text = true)
    (tail : Binds right (.code text :: second)) :
    Binds (left ++ right) (first ++ .code text :: second) := by
  constructor
  · apply isSpaced_append head.spaced tail.spaced
    simp [opens, Piece.opens, delimited]
  · rw [parameters_append, head.parameters_eq, tail.parameters_eq]

theorem code_cons (sound : (Piece.code text).isSound = true)
    (closes : (Piece.code text).closes = true) (tail : Binds values second) :
    Binds values (.code text :: second) := by
  constructor
  · simp [isSpaced, sound, closes, tail.spaced]
  · exact tail.parameters_eq

theorem name_cons {before : String} (sound : (Piece.code before).isSound = true)
    (closes : (Piece.code before).closes = true) (name : String)
    (delimited : beginsDelimited text = true) (tail : Binds values (.code text :: second)) :
    Binds values (.code before :: .identifier name :: .code text :: second) :=
  code_cons sound closes ((identifier name).append_code delimited tail)

theorem parenthesized (inner : Binds values first) :
    Binds values (Fragment.parenthesized first) := by
  have closing : Binds [] [.code ")"] := code rfl
  have closed := inner.append_code rfl closing
  rw [List.append_nil] at closed
  exact code_cons rfl rfl closed

/-- Code that may stand between any two fragments. -/
structure IsSeparator (text : String) : Prop where
  sound : (Piece.code text).isSound = true
  closes : (Piece.code text).closes = true
  delimited : beginsDelimited text = true

theorem isSeparator : IsSeparator " AND " ∧ IsSeparator " OR " ∧ IsSeparator ", " :=
  ⟨⟨rfl, rfl, rfl⟩, ⟨rfl, rfl, rfl⟩, ⟨rfl, rfl, rfl⟩⟩

/-- Fragments with a separator between them bind their values one after the other. -/
theorem separated (separator : IsSeparator text) {lists : List (List Value)}
    {fragments : List Fragment} (each : List.Forall₂ Binds lists fragments) :
    Binds lists.flatten (Fragment.separated text fragments) := by
  induction each with
  | nil => exact nil
  | @cons values fragment lists fragments head rest ih =>
      cases rest with
      | nil => simpa [Fragment.separated, List.intercalate] using head
      | @cons others next more later headNext restLater =>
          rw [separated_cons_cons, List.flatten_cons]
          exact head.append_code separator.delimited
            (code_cons separator.sound separator.closes ih)

theorem call {name : String} (sound : (Piece.code name).isSound = true)
    {lists : List (List Value)} {fragments : List Fragment}
    (each : List.Forall₂ Binds lists fragments) :
    Binds lists.flatten (Fragment.call name fragments) :=
  (code sound).append_code rfl (separated isSeparator.2.2 each).parenthesized

theorem separated_nil (separator : IsSeparator text) {fragments : List Fragment}
    (each : ∀ fragment ∈ fragments, Binds [] fragment) :
    Binds [] (Fragment.separated text fragments) := by
  have lists : List.Forall₂ Binds (fragments.map fun _ => []) fragments := by
    induction fragments with
    | nil => exact .nil
    | cons fragment rest ih =>
        exact .cons (each fragment (by simp)) (ih fun other member => each other (by simp [member]))
  have none : (fragments.map fun _ => ([] : List Value)).flatten = [] := by simp
  rw [← none]
  exact separated separator lists

theorem call_nil {name : String} (sound : (Piece.code name).isSound = true)
    {fragments : List Fragment} (each : ∀ fragment ∈ fragments, Binds [] fragment) :
    Binds [] (Fragment.call name fragments) :=
  (code sound).append_code rfl (separated_nil isSeparator.2.2 each).parenthesized

end Binds

end Fragment

open Fragment

namespace JsonDialect

variable (dialect : JsonDialect) (column : String) (path : FieldPath)

theorem binds_jsonPath : Binds [] [jsonPath path] :=
  Binds.constant (backslash_not_mem_pathNotation path)

theorem binds_extraction : Binds [] (dialect.extraction column path) := by
  cases dialect with
  | sqlite | mysql =>
      apply Binds.call_nil rfl
      simp [Binds.identifier, binds_jsonPath]
  | postgres =>
      apply Binds.parenthesized
      have members {keys : List String} {first : Fragment} (head : Binds [] first)
          (plain : ∀ key ∈ keys, '\\' ∉ key.toList) :
          Binds [] (first ++ keys.flatMap fun key => [.code " -> ", .constant key]) := by
        induction keys generalizing first with
        | nil => simpa using head
        | cons key keys ih =>
            have arrow : Binds [] [.code " -> ", .constant key] :=
              Binds.code_cons rfl rfl (Binds.constant (plain key (by simp)))
            have next := head.append_code rfl arrow
            simpa using ih next fun other member => plain other (by simp [member])
      exact members (Binds.identifier column) fun segment member =>
        backslash_not_mem_segment path member

theorem binds_typeOf : Binds [] (dialect.typeOf column path) := by
  cases dialect with
  | sqlite =>
      apply Binds.call_nil rfl
      simp [Binds.identifier, binds_jsonPath]
  | mysql | postgres =>
      apply Binds.call_nil rfl
      simp [binds_extraction]

theorem binds_kindTest (kind : ScalarKind) :
    Binds [] (dialect.kindTest column path kind) := by
  have words : Binds []
      (Fragment.separated ", " ((dialect.typeWords kind).map ([.constant ·]))) := by
    apply Binds.separated_nil Binds.isSeparator.2.2
    have plain : ∀ word ∈ dialect.typeWords kind, '\\' ∉ word.toList := by
      cases dialect <;> cases kind <;> decide
    simpa using fun word member => Binds.constant (plain word member)
  have operand := dialect.binds_typeOf column path
  cases dialect with
  | sqlite | mysql =>
      exact operand.append_code rfl (Binds.code_cons rfl rfl words.parenthesized)
  | postgres => exact operand.append_code rfl (Binds.code_cons rfl rfl words)

theorem binds_nullTest : Binds [] (dialect.nullTest column path) := by
  have absent {word : String} (plain : '\\' ∉ word.toList) :
      Binds [] (nullTest.absentAs dialect column path word) := by
    have coalesced : Binds [] (Fragment.call "COALESCE"
        [dialect.typeOf column path, [.constant word]]) := by
      apply Binds.call_nil rfl
      simp [binds_typeOf, Binds.constant plain]
    exact coalesced.append_code rfl (Binds.code_cons rfl rfl (Binds.constant plain))
  cases dialect with
  | sqlite => exact (binds_extraction .sqlite column path).append_code rfl (Binds.code rfl)
  | mysql | postgres => exact absent (by decide)

theorem binds_existenceTest : Binds [] (dialect.existenceTest column path) := by
  cases dialect with
  | sqlite => exact (binds_typeOf .sqlite column path).append_code rfl (Binds.code rfl)
  | mysql =>
      apply Binds.call_nil rfl
      have one : Binds [] [.constant "one"] := Binds.constant (by decide)
      simp [Binds.identifier, binds_jsonPath, one]
  | postgres => exact (binds_extraction .postgres column path).append_code rfl (Binds.code rfl)

end JsonDialect

namespace Dialect

variable (dialect : Dialect)

theorem extraction_binds (path : FieldPath) : Ensures (Binds []) (dialect.extraction path) := by
  cases dialect with
  | json engine => exact Ensures.pure (engine.binds_extraction documentColumn path)
  | text => exact Ensures.throw _

theorem literal_binds (literal : Scalar) :
    Binds [dialect.literalValue literal] [dialect.literal literal] :=
  Binds.parameter .literal _

theorem test_binds {capability : Capability} {fragment : JsonDialect → Fragment}
    (each : ∀ engine, Binds [] (fragment engine)) :
    Ensures (Binds []) (dialect.test capability fragment) := by
  cases dialect with
  | json engine => exact Ensures.pure (each engine)
  | text => exact Ensures.throw _

end Dialect

namespace Predicate

mutual

/-- The literals of a predicate from left to right. -/
def literals : Predicate → List Scalar
  | .all parts | .any parts => literalsOf parts
  | .negation part | .notTrue part => literals part
  | .compare _ _ literal => [literal]
  | .among _ list => list
  | .constant _ | .present _ | .nullOrMissing _ | .ofKind .. => []

/-- The literals of predicates from left to right. -/
def literalsOf : List Predicate → List Scalar
  | [] => []
  | part :: rest => literals part ++ literalsOf rest

end

/-- The values of the literals of a predicate. -/
def values (dialect : Dialect) (predicate : Predicate) : List Value :=
  predicate.literals.map dialect.literalValue

theorem literalsOf_eq_flatMap (parts : List Predicate) :
    literalsOf parts = parts.flatMap literals := by
  induction parts with
  | nil => rfl
  | cons part rest ih => rw [literalsOf, ih, List.flatMap_cons]

theorem flatten_values (dialect : Dialect) (parts : List Predicate) :
    (parts.map (values dialect)).flatten = (literalsOf parts).map dialect.literalValue := by
  rw [literalsOf_eq_flatMap, List.map_flatMap]
  rfl

mutual

theorem fragment_binds (dialect : Dialect) (predicate : Predicate) :
    Ensures (Binds (predicate.values dialect)) (predicate.fragment dialect) := by
  match predicate with
  | .constant true | .constant false => exact Ensures.pure (Binds.code rfl)
  | .all parts =>
      apply (fragments_bind dialect parts).bind
      intro texts bound
      apply Ensures.pure
      rw [values, literals, ← flatten_values]
      exact (Binds.separated Binds.isSeparator.1 bound).parenthesized
  | .any parts =>
      apply (fragments_bind dialect parts).bind
      intro texts bound
      apply Ensures.pure
      rw [values, literals, ← flatten_values]
      exact (Binds.separated Binds.isSeparator.2.1 bound).parenthesized
  | .negation part =>
      apply (fragment_binds dialect part).bind
      intro text bound
      exact Ensures.pure (Binds.code_cons rfl rfl bound.parenthesized)
  | .notTrue part =>
      apply (fragment_binds dialect part).bind
      intro text bound
      apply Ensures.pure
      have falsity : Binds [] [.code "FALSE"] := Binds.code rfl
      have sound : (Piece.code "COALESCE").isSound = true := rfl
      have coalesced := Binds.call sound (.cons bound (.cons falsity .nil))
      simpa [values, literals] using Binds.code_cons rfl rfl coalesced
  | .present path => exact dialect.test_binds fun engine => engine.binds_existenceTest _ path
  | .nullOrMissing path => exact dialect.test_binds fun engine => engine.binds_nullTest _ path
  | .ofKind path kind =>
      apply (dialect.extraction_binds path).bind
      intro value _
      exact dialect.test_binds fun engine => engine.binds_kindTest _ path kind
  | .compare path comparison literal =>
      apply (dialect.extraction_binds path).bind
      intro value bound
      have symbol : Binds [dialect.literalValue literal]
          [.code s!" {comparison.symbol} ", dialect.literal literal] := by
        cases comparison <;> exact Binds.code_cons rfl rfl (Binds.parameter _ _)
      have delimited : beginsDelimited s!" {comparison.symbol} " = true := by
        cases comparison <;> rfl
      cases literal with
      | null => exact Ensures.throw _
      | bool _ | number _ | string _ => exact Ensures.pure (bound.append_code delimited symbol)
  | .among path list =>
      apply (dialect.extraction_binds path).bind
      intro value bound
      apply Ensures.pure
      have each : List.Forall₂ Binds (list.map fun literal => [dialect.literalValue literal])
          (list.map ([dialect.literal ·])) := by
        simp [List.forall₂_same, dialect.literal_binds]
      have parameters := (Binds.separated Binds.isSeparator.2.2 each).parenthesized
      have flat : (list.map fun literal => [dialect.literalValue literal]).flatten =
          list.map dialect.literalValue := List.flatMap_pure_eq_map dialect.literalValue list
      rw [flat] at parameters
      exact bound.append_code rfl (Binds.code_cons rfl rfl parameters)

theorem fragments_bind (dialect : Dialect) (parts : List Predicate) :
    Ensures (List.Forall₂ Binds (parts.map (values dialect))) (fragments dialect parts) := by
  match parts with
  | [] => exact Ensures.pure .nil
  | part :: rest =>
      apply (fragment_binds dialect part).bind
      intro text bound
      apply (fragments_bind dialect rest).bind
      intro texts others
      exact Ensures.pure (.cons bound others)

end

end Predicate

namespace Dialect

variable (dialect : Dialect)

theorem documentText_binds : Binds [] dialect.documentText := by
  rcases dialect with (_ | _ | _) | _
  case json.postgres => exact ⟨rfl, rfl⟩
  all_goals exact Binds.identifier documentColumn

theorem orderTerm_binds {expression : Fragment} (binds : Binds [] expression)
    (order : SortOrder) : Binds [] (dialect.orderTerm expression order) := by
  have direction {text : String} (delimited : beginsDelimited text = true)
      (sound : (Piece.code text).isSound = true) : Binds [] (expression ++ [.code text]) :=
    binds.append_code delimited (Binds.code sound)
  rcases dialect with (_ | _ | _) | _ <;> cases order <;> exact direction rfl rfl

theorem orderClause_binds (terms : List SortTerm) :
    Ensures (Binds []) (dialect.orderClause terms) := by
  have term (term : SortTerm) : Ensures (Binds []) (do
      return dialect.orderTerm (← dialect.extraction term.1) term.2) := by
    apply (dialect.extraction_binds term.1).bind
    intro expression binds
    exact Ensures.pure (dialect.orderTerm_binds binds term.2)
  apply (Ensures.mapM fun element _ => term element).bind
  intro keys each
  apply Ensures.pure
  split
  · exact Binds.nil
  · apply Binds.code_cons rfl rfl
    apply Binds.separated_nil Binds.isSeparator.2.2
    intro key member
    rcases List.mem_append.1 member with member | member
    · exact each key member
    · rcases Option.map_eq_some_iff.1 (Option.mem_toList.1 member) with ⟨column, exposed, rfl⟩
      apply orderTerm_binds
      rcases dialect with (_ | _ | _) | _ <;> cases exposed
      exact Binds.code rfl

/-- What bounds the number of rows: a limit and then what is skipped. -/
def countValues (limit skip : Option Nat) : List Value :=
  (limit.toList ++ skip.toList).map fun count => .integer count

/-- A fragment binds a count. -/
def BindsCount (count : Nat) : Fragment → Prop := Binds [.integer count]

theorem countParameter_binds (count : Nat) :
    Ensures (BindsCount count) (countParameter count) := by
  unfold countParameter
  split
  · exact Ensures.pure (Binds.parameter .plain _)
  · exact Ensures.throw _

theorem countParameters_bind (count : Option Nat) :
    Ensures (Option.Rel BindsCount count)
      (count.mapM countParameter) := by
  cases count with
  | none => exact Ensures.pure .none
  | some number =>
      apply (countParameter_binds number).bind
      intro fragment binds
      exact Ensures.pure (.some binds)

/-- The limit is bound in front of what is skipped, whichever of them there are. -/
theorem slice_binds {limit skip : Option Nat} {limitText skipText : Option Fragment}
    (first : Option.Rel BindsCount limit limitText)
    (second : Option.Rel BindsCount skip skipText) :
    Binds (countValues limit skip) (dialect.slice limitText skipText) := by
  cases first with
  | none =>
      cases second with
      | none => exact Binds.nil
      | @some number fragment skip =>
          have offset : Binds [.integer number] (.code " OFFSET " :: fragment) :=
            Binds.code_cons rfl rfl skip
          have behind {text : String} (sound : (Piece.code text).isSound = true) :
              Binds [.integer number]
                (.code "LIMIT " :: ([.code text] ++ .code " OFFSET " :: fragment)) :=
            Binds.code_cons rfl rfl ((Binds.code sound).append_code rfl offset)
          rcases dialect with (_ | _ | _) | _
          case json.postgres => exact Binds.code_cons rfl rfl skip
          all_goals exact behind rfl
  | some limit =>
      cases second with
      | none => exact Binds.code_cons rfl rfl limit
      | some skip =>
          exact Binds.code_cons rfl rfl (limit.append_code rfl (Binds.code_cons rfl rfl skip))

end Dialect

theorem Fragment.Binds.followedBy {left right : List Value} {first second : Fragment}
    (head : Binds left first) (tail : Binds right second) :
    Binds (left ++ right) (Fragment.followedBy first second) := by
  unfold Fragment.followedBy
  cases second with
  | nil =>
      have none : right = [] := tail.parameters_eq.symm
      simpa [none] using head
  | cons piece rest => exact head.append_code rfl (Binds.code_cons rfl rfl tail)

theorem JsonDialect.mergePatch_binds (dialect : JsonDialect) (column : String)
    {values : List Value} {patch : Fragment} (binds : Binds values patch) :
    Binds values (dialect.mergePatch column patch) := by
  have name := Binds.identifier column
  have call {function : String} (sound : (Piece.code function).isSound = true) :
      Binds values (Fragment.call function [[.identifier column], patch]) := by
    simpa using Binds.call sound (.cons name (.cons binds .nil))
  cases dialect with
  | sqlite | mysql => exact call rfl
  | postgres => exact name.append_code rfl (Binds.code_cons rfl rfl binds)

/-! ## Commands -/

/-- The value that a row is found by. -/
def RowKey.value (dialect : Dialect) : RowKey → Value
  | .id value => dialect.literalValue (.string value)
  | .text stored => Value.text stored

theorem RowKey.condition_binds (dialect : Dialect) (key : RowKey) :
    Ensures (Binds [key.value dialect]) (key.condition dialect) := by
  cases key with
  | id value =>
      apply (dialect.extraction_binds idPath).bind
      intro expression binds
      have literal := dialect.literal_binds (.string value)
      exact Ensures.pure (binds.append_code rfl (Binds.code_cons rfl rfl literal))
  | text stored =>
      have column := Binds.identifier documentColumn
      have parameter := Binds.parameter .plain (.text stored)
      exact Ensures.pure (column.append_code rfl (Binds.code_cons rfl rfl parameter))

namespace Command

/-- The values that a command binds: the literals of a predicate and then the
bounds of a search, or the text of a document and then the key of a row. -/
def values (dialect : Dialect) : Command → List Value
  | .createTable | .dropTable => []
  | .select predicate _ limit skip =>
      predicate.values dialect ++ Dialect.countValues limit skip
  | .count predicate | .deleteWhere predicate => predicate.values dialect
  | .insert text => [.text text]
  | .overwrite key text | .patch key text => [.text text, key.value dialect]
  | .delete key => [key.value dialect]

theorem fragment_binds (dialect : Dialect) (table : String) (command : Command) :
    Ensures (Binds (command.values dialect)) (command.fragment dialect table) := by
  have condition {values : List Value} {test : Fragment} (binds : Binds values test) :
      Binds values (.code " WHERE " :: test) := Binds.code_cons rfl rfl binds
  cases command with
  | createTable =>
      apply Ensures.pure
      rcases dialect with (_ | _ | _) | _ <;> exact ⟨rfl, rfl⟩
  | dropTable => exact Ensures.pure (Binds.code_cons rfl rfl (Binds.identifier table))
  | select predicate order limit skip =>
      apply (predicate.fragment_binds dialect).bind
      intro test binds
      have ordered (clause : Fragment) (clauseBinds : Binds [] clause) :
          Ensures (Binds (values dialect (.select predicate order limit skip))) (do
            let limit ← limit.mapM countParameter
            let skip ← skip.mapM countParameter
            return Fragment.followedBy (Fragment.followedBy
              (.code "SELECT " :: dialect.documentText ++ [.code " FROM ", .identifier table,
                .code " WHERE "] ++ test) clause) (dialect.slice limit skip)) := by
        apply (Dialect.countParameters_bind limit).bind
        intro limitText first
        apply (Dialect.countParameters_bind skip).bind
        intro skipText second
        have source : Binds _ (.code " FROM " :: _) :=
          Binds.name_cons rfl rfl table rfl (condition binds)
        have rows : Binds _ (.code "SELECT " :: _) :=
          Binds.code_cons rfl rfl (dialect.documentText_binds.append_code rfl source)
        have sliced := (rows.followedBy clauseBinds).followedBy (dialect.slice_binds first second)
        apply Ensures.pure
        simpa [values] using sliced
      cases order with
      | none => exact ordered [] Binds.nil
      | some terms => exact (dialect.orderClause_binds terms).bind ordered
  | count predicate | deleteWhere predicate =>
      apply (predicate.fragment_binds dialect).bind
      intro test binds
      exact Ensures.pure (Binds.name_cons rfl rfl table rfl (condition binds))
  | insert text => exact Ensures.pure ⟨rfl, rfl⟩
  | overwrite key text =>
      apply (key.condition_binds dialect).bind
      intro test binds
      have written := (Binds.parameter .document (.text text)).append_code rfl (condition binds)
      have assigned : Binds _ (.code " = " :: _) := Binds.code_cons rfl rfl written
      exact Ensures.pure (Binds.name_cons rfl rfl table rfl
        (Binds.name_cons rfl rfl documentColumn rfl assigned))
  | patch key text =>
      cases dialect with
      | text => exact Ensures.throw _
      | json engine =>
          apply (key.condition_binds (.json engine)).bind
          intro test binds
          have merged := engine.mergePatch_binds documentColumn
            (Binds.parameter .document (.text text))
          have assigned : Binds _ (.code " = " :: _) :=
            Binds.code_cons rfl rfl (merged.append_code rfl (condition binds))
          exact Ensures.pure (Binds.name_cons rfl rfl table rfl
            (Binds.name_cons rfl rfl documentColumn rfl assigned))
  | delete key =>
      apply (key.condition_binds dialect).bind
      intro test binds
      exact Ensures.pure (Binds.name_cons rfl rfl table rfl (condition binds))

end Command

end DocTable.Sql
