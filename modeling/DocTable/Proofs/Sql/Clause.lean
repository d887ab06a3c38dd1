import DocTable.Engine.Memory
import DocTable.Proofs.Collection.Patching
import DocTable.Proofs.Sql.Reading

/-!
# Slices and merges read back

What an engine reads in the clause that cuts a result and in the expression that
merges a patch. Of a result such a clause keeps what a table in memory keeps; a merge
has the column for its target and the bound text for its patch.
-/

namespace DocTable.Sql

/-- The part of a result that a clause keeps. -/
structure Slice where
  /-- How many rows are kept at most, if there is a limit. -/
  limit : Option Nat
  /-- How many rows in front of them are left out. -/
  offset : Nat

namespace Slice

/-- The rows that are kept. -/
def keep {α : Type} (slice : Slice) (rows : List α) : List α :=
  match slice.limit with
  | some limit => (rows.drop slice.offset).take limit
  | none => rows.drop slice.offset

theorem keep_map {α β : Type} (slice : Slice) (change : α → β) (rows : List α) :
    slice.keep (rows.map change) = (slice.keep rows).map change := by
  rw [keep, keep]
  cases slice.limit with
  | none => exact (List.map_drop ..).symm
  | some limit => rw [List.map_take, List.map_drop]

/-- The count at the beginning of some tokens and the tokens behind it. -/
def readCount? : List Token → Option (Int × List Token)
  | .value (.integer count) :: rest => some (count, rest)
  | .word digits :: rest => (decimalNumber? digits.toList).map fun count => (count, rest)
  | .symbol "-" :: .word digits :: rest =>
      (decimalNumber? digits.toList).map fun count => (-count, rest)
  | _ => none

/-- The count behind a keyword, if the keyword is there, and the tokens behind it. -/
def readPart? (keyword : String) (tokens : List Token) : Option (Option Int × List Token) :=
  match tokens with
  | .word word :: rest =>
      if word = keyword then (readCount? rest).map fun (count, rest) => (some count, rest)
      else some (none, tokens)
  | _ => some (none, tokens)

/-- The slice of a clause. A negative limit is none at all. -/
def ofTokens? (tokens : List Token) : Option Slice := do
  let (limit, rest) ← readPart? "LIMIT" tokens
  let (offset, rest) ← readPart? "OFFSET" rest
  if rest.isEmpty then some ⟨limit.bind Int.toNat?, (offset.getD 0).toNat⟩ else none

/-- The slice that an engine finds in a text. The parameters are those of the whole statement, of
which the text in front of this one uses as many as `used` says. -/
def read? (dialect : Dialect) (parameters : List Value) (used : Nat) (text : String) :
    Option Slice := do
  ofTokens? (← Token.read? dialect parameters used text)

/-- The two counts are told apart by their keywords. -/
example : (read? (.json .postgres) [.integer 2, .integer 5] 0 "LIMIT $2 OFFSET $1").map (·.keep
    [10, 11, 12, 13]) = some [12, 13] := by
  rfl

end Slice

namespace Dialect

/-- The slice that the clause of a limit and a skip is meant to be. One dialect has no way to ask
for all rows behind an offset but by a limit that no table reaches. -/
def sliced (dialect : Dialect) (limit skip : Option Nat) : Slice where
  limit := match limit, skip, dialect with
    | none, some _, .json .mysql => some 0xFFFFFFFFFFFFFFFF
    | _, _, _ => limit
  offset := skip.getD 0

/-- The parameter of a count that is in range. -/
def countFragment (count : Nat) : Fragment := [.parameter .plain (.integer count)]

theorem countParameters_eq {count : Option Nat} {text : Option Fragment}
    (printed : count.mapM countParameter = .ok text) : text = count.map countFragment := by
  cases count with
  | none =>
      cases printed
      rfl
  | some count =>
      rw [Option.mapM_some, countParameter] at printed
      by_cases small : count < 0x8000000000000000
      · rw [if_pos small] at printed
        cases printed
        rfl
      · rw [if_neg small] at printed
        cases printed

open Fragment

theorem exists_slice (dialect : Dialect) (limit skip : Option Nat) :
    ∃ tokens,
      Scans dialect (dialect.slice (limit.map countFragment) (skip.map countFragment)) tokens ∧
      Slice.ofTokens? tokens = some (dialect.sliced limit skip) := by
  have count (value : Nat) : Scans dialect (countFragment value) [.value (.integer value)] := by
    have bound := Scans.bound dialect .plain (.integer value)
    rcases dialect with (_ | _ | _) | _ <;> exact bound
  have limitWord : Token.run? dialect .between "LIMIT ".toList =
    some ([.word "LIMIT"], .between) := rfl
  have offsetWord : Token.run? dialect .between "OFFSET ".toList =
    some ([.word "OFFSET"], .between) := rfl
  have innerWord : Token.run? dialect .between " OFFSET ".toList =
    some ([.word "OFFSET"], .between) := rfl
  -- A limit in front of an offset.
  have both {limitText : Fragment} {tokens : List Token} (scans : Scans dialect limitText tokens)
      (value : Nat) :
      Scans dialect (.code "LIMIT " :: limitText ++ .code " OFFSET " :: countFragment value)
        (.word "LIMIT" :: (tokens ++ [.word "OFFSET", .value (.integer value)])) :=
    Scans.code_cons limitWord rfl
      (scans.append_code rfl (Scans.code_cons innerWord rfl (count value)))
  cases limit with
  | some limit =>
      cases skip with
      | none => exact ⟨_, Scans.code_cons limitWord rfl (count limit), rfl⟩
      | some skip => exact ⟨_, both (count limit) skip, rfl⟩
  | none =>
      cases skip with
      | none => exact ⟨[], Scans.nil, rfl⟩
      | some skip =>
          rcases dialect with (_ | _ | _) | _
          case json.postgres => exact ⟨_, Scans.code_cons offsetWord rfl (count skip), rfl⟩
          all_goals exact ⟨_, both (Scans.code rfl rfl) skip, rfl⟩

theorem keep_sliced (dialect : Dialect) (limit skip : Option Nat) {α : Type} {rows : List α}
    (few : rows.length < 2 ^ 64) :
    (dialect.sliced limit skip).keep rows = (Slice.mk limit (skip.getD 0)).keep rows := by
  match limit, skip, dialect with
  | none, some skip, .json .mysql =>
      have within : (rows.drop skip).length ≤ 0xFFFFFFFFFFFFFFFF := by
        rw [List.length_drop]
        omega
      exact List.take_of_length_le within
  | none, some _, .json .sqlite | none, some _, .json .postgres | none, some _, .text => rfl
  | none, none, _ | some _, none, _ | some _, some _, _ => rfl

/-- A table in memory slices the rows that it has chosen and sorted. -/
theorem exists_sorted (rows : List Value) (predicate : Predicate)
    (order : Option (List SortTerm)) :
    ∃ sorted : List Value, sorted.length ≤ rows.length ∧ ∀ limit skip,
      MemoryStore.select rows predicate order limit skip =
        ((Slice.mk limit (skip.getD 0)).keep sorted).map fun row => [row.asRead] := by
  have chosen : (rows.filter predicate.choosesRow).length ≤ rows.length :=
    List.length_filter_le _ _
  cases order with
  | none => exact ⟨rows.filter predicate.choosesRow, chosen, fun _ _ => rfl⟩
  | some terms =>
      refine ⟨stableSort (fun left right => Document.compareBy terms (left.document?.getD ∅)
        (right.document?.getD ∅)) (rows.filter predicate.choosesRow), ?_, fun _ _ => rfl⟩
      rwa [length_stableSort]

/-- What it selects is what the slice keeps of all these rows. -/
theorem select_eq_keep (dialect : Dialect) {rows : List Value} (few : rows.length < 2 ^ 64)
    (predicate : Predicate) (order : Option (List SortTerm)) (limit skip : Option Nat) :
    MemoryStore.select rows predicate order limit skip =
      (dialect.sliced limit skip).keep (MemoryStore.select rows predicate order none none) := by
  rcases exists_sorted rows predicate order with ⟨sorted, within, selected⟩
  have all : MemoryStore.select rows predicate order none none =
      sorted.map fun row => [row.asRead] := selected none none
  rw [selected, all, Slice.keep_map, keep_sliced dialect limit skip (Nat.lt_of_le_of_lt within few)]

/-- The clause is read, with its parameters, as a slice that keeps of a result what a table in
memory keeps of its rows. -/
theorem slice_keeps (dialect : Dialect) {limit skip : Option Nat}
    {limitText skipText : Option Fragment}
    (limitPrinted : limit.mapM countParameter = .ok limitText)
    (skipPrinted : skip.mapM countParameter = .ok skipText) :
    ∃ slice : Slice,
      (∀ before after, Slice.read? dialect
        (before ++ Fragment.parameters (dialect.slice limitText skipText) ++ after) before.length
        (String.ofList (Fragment.chars dialect before.length (dialect.slice limitText skipText))) =
          some slice) ∧
      ∀ rows : List Value, rows.length < 2 ^ 64 → ∀ predicate order,
        MemoryStore.select rows predicate order limit skip =
          slice.keep (MemoryStore.select rows predicate order none none) := by
  cases countParameters_eq limitPrinted
  cases countParameters_eq skipPrinted
  rcases dialect.exists_slice limit skip with ⟨tokens, scans, isSlice⟩
  refine ⟨dialect.sliced limit skip, ?_, ?_⟩
  · intro before after
    rw [Slice.read?, scans.read?_eq]
    exact isSlice
  · intro rows few predicate order
    exact select_eq_keep dialect few predicate order limit skip

end Dialect

/-- The merge of a patch over a target. -/
structure Merge where
  target : Expression
  patch : Expression

namespace Merge

/-- The merge that tokens ask for. Two dialects have functions for it whose second argument is the
patch, and one has an operator whose right side is. -/
def ofTokens? (dialect : JsonDialect) (tokens : List Token) : Option Merge :=
  match dialect with
  | .sqlite => ofCall? "json_patch"
  | .mysql => ofCall? "JSON_MERGE_PATCH"
  | .postgres =>
      match tokens.span (· ≠ .symbol "||") with
      | (target, _ :: patch) => do
          return ⟨← Expression.ofTokens? target, ← Expression.ofTokens? patch⟩
      | (_, []) => none
where
  /-- The arguments of a call of a function. -/
  ofCall? (function : String) : Option Merge :=
    match Expression.ofTokens? tokens with
    | some (.call name [target, patch]) => if name = function then some ⟨target, patch⟩ else none
    | _ => none

theorem ofCall?_eq {tokens : List Token} {function : String} {target patch : Expression}
    (found : Expression.ofTokens? tokens = some (.call function [target, patch])) :
    ofTokens?.ofCall? tokens function = some ⟨target, patch⟩ := by
  rw [ofTokens?.ofCall?, found]
  exact if_pos rfl

/-- The merge that an engine finds in a text. -/
def read? (dialect : JsonDialect) (parameters : List Value) (used : Nat) (text : String) :
    Option Merge := do
  ofTokens? dialect (← Token.read? (.json dialect) parameters used text)

/-- The JSON value of the column or of a bound text. -/
def valueOf? (read : String → Option Json) (document : Document) : Expression → Option Json
  | .column name => if name = documentColumn then some (.object document) else none
  | .parameter (.text text) | .cast (.parameter (.text text)) "JSONB" => read text
  | _ => none

/-- What the merge makes of a document. -/
def value? (dialect : JsonDialect) (read : String → Option Json) (document : Document)
    (merge : Merge) : Option Json := do
  match dialect, ← valueOf? read document merge.target, ← valueOf? read document merge.patch with
  | .postgres, .object fields, .object others => some (.object (fields.insertMany others.entries))
  | .postgres, _, _ => none
  | _, target, patch => some (Json.mergePatch target patch)

end Merge

namespace JsonDialect

open Fragment

/-- The expression of a patch is read as the merge of the bound text over the column. -/
theorem exists_mergePatch (dialect : JsonDialect) (text : String) :
    ∃ tokens, Scans (.json dialect)
        (dialect.mergePatch documentColumn [.parameter .document (.text text)]) tokens ∧
      Merge.ofTokens? dialect tokens = some ⟨.column documentColumn,
        Dialect.bound (.json dialect) .document (.text text)⟩ := by
  have patch := ReadsOperand.parameter (.json dialect) .document (.text text)
  have arguments := List.Forall₂.cons (@readsTest_column (.json dialect))
    (.cons patch.readsTest .nil)
  have nonempty := List.cons_ne_nil [Piece.identifier documentColumn]
    [[Piece.parameter .document (.text text)]]
  cases dialect with
  | sqlite =>
      have call : ReadsOperand (.json .sqlite) _ (.call "json_patch" _) :=
        ReadsOperand.call rfl (by decide) arguments nonempty
      rcases call.readsTest.exists_ofTokens? with ⟨tokens, scans, found⟩
      exact ⟨tokens, scans, Merge.ofCall?_eq found⟩
  | mysql =>
      have call : ReadsOperand (.json .mysql) _ (.call "JSON_MERGE_PATCH" _) :=
        ReadsOperand.call rfl (by decide) arguments nonempty
      rcases call.readsTest.exists_ofTokens? with ⟨tokens, scans, found⟩
      exact ⟨tokens, scans, Merge.ofCall?_eq found⟩
  | postgres =>
      have operator : Token.run? (.json .postgres) .between " || ".toList =
        some ([.symbol "||"], .between) := rfl
      have column : Scans (.json .postgres) [.identifier documentColumn]
        [.quotation .name documentColumn] := Scans.identifier documentColumn
      exact ⟨_, column.append_code rfl (Scans.code_cons operator rfl
        (Scans.bound (.json .postgres) .document (.text text))), rfl⟩

/-- The expression that a document is patched with is read, with its parameter, as the merge that
its dialect is known for. -/
theorem mergePatch_merges (dialect : JsonDialect) (text : String) :
    ∃ merge : Merge,
      (∀ before after, Merge.read? dialect (before ++ [.text text] ++ after) before.length
        (String.ofList (Fragment.chars (.json dialect) before.length
          (dialect.mergePatch documentColumn [.parameter .document (.text text)]))) =
            some merge) ∧
      ∀ read document, merge.value? dialect read document = dialect.merged read document text := by
  rcases dialect.exists_mergePatch text with ⟨tokens, scans, isMerge⟩
  refine ⟨⟨.column documentColumn, Dialect.bound (.json dialect) .document (.text text)⟩, ?_, ?_⟩
  · intro before after
    have bound : Fragment.parameters (dialect.mergePatch documentColumn
        [.parameter .document (.text text)]) = [.text text] := by
      cases dialect <;> rfl
    rw [Merge.read?, ← bound, scans.read?_eq]
    exact isMerge
  · intro read document
    have patch : Merge.valueOf? read document
        (Dialect.bound (.json dialect) .document (.text text)) = read text := by
      cases dialect <;> rfl
    have target : Merge.valueOf? read document (.column documentColumn) =
        some (.object document) := by
      simp [Merge.valueOf?]
    rw [Merge.value?, target, patch]
    cases understood : read text with
    | none => cases dialect <;> simp [merged, understood]
    | some value =>
        cases dialect with
        | sqlite | mysql => simp [merged, understood]
        | postgres => cases value <;> simp [merged, understood]

end JsonDialect

end DocTable.Sql
