import DocTable.Proofs.Sql.Rendering

/-!
# Placeholders

Outside quotations the text of a fragment has one placeholder for each of its
parameters, from left to right. A fragment is spaced if a blank, a parenthesis
or a comma stands between any two of its pieces. The pieces of such a fragment
can be split into tokens one by one, so nothing that a quotation holds can end
it early or be taken for a placeholder.
-/

namespace DocTable.Sql

/-- The number in a placeholder, in the dialects that number them. -/
def Dialect.numbering : Dialect → Nat → Option Nat
  | .json .postgres, index => some index
  | _, _ => none

namespace Token

/-- The number of a placeholder, which may be missing. Other tokens are none. -/
def placeholder? : Token → Option (Option Nat)
  | .placeholder number => some number
  | _ => none

/-- The placeholders of a text with their numbers. -/
def numbers (tokens : List Token) : List (Option Nat) := tokens.filterMap placeholder?

@[simp] theorem numbers_append (first second : List Token) :
    numbers (first ++ second) = numbers first ++ numbers second :=
  List.filterMap_append

/-- Whether a character can stand in code, which holds neither quotations nor
placeholders. -/
def isCodeChar (char : Char) : Bool :=
  isWordChar char || isSymbolChar char || (ofDelimiter? char).isSome

/-- Whether the scanner is outside quotations and numbers of placeholders. -/
def Scanner.isCode : Scanner → Bool
  | .between | .word _ | .symbol _ => true
  | .number _ | .quoted .. | .closed .. => false

variable (dialect : Dialect)

theorem finish?_of_isCode {scanner : Scanner} (code : scanner.isCode = true) :
    ∃ remaining, finish? scanner = some remaining ∧ numbers remaining = [] := by
  cases scanner with
  | between => exact ⟨[], rfl, rfl⟩
  | word read => exact ⟨_, rfl, rfl⟩
  | symbol read => exact ⟨_, rfl, rfl⟩
  | number _ | quoted _ _ | closed _ _ => cases code

theorem start?_code {char : Char} (plain : isCodeChar char = true) :
    ∃ tokens next, start? dialect char = some (tokens, next) ∧ next.isCode = true ∧
      numbers tokens = [] := by
  cases delimiter : ofDelimiter? char with
  | some tokens =>
      refine ⟨tokens, .between, start?_delimiter delimiter, rfl, ?_⟩
      unfold ofDelimiter? at delimiter
      grind [numbers, placeholder?]
  | none =>
      cases word : isWordChar char with
      | true => exact ⟨[], .word [char], by simp [start?, delimiter, word], rfl, rfl⟩
      | false =>
          have symbol : isSymbolChar char = true := by
            simpa [isCodeChar, delimiter, word] using plain
          exact ⟨[], .symbol [char], by simp [start?, delimiter, word, symbol], rfl, rfl⟩

/-- A character of code completes no placeholder, and a delimiter leaves
nothing open. -/
theorem step?_code {scanner : Scanner} {char : Char} (code : scanner.isCode = true)
    (plain : isCodeChar char = true) :
    ∃ tokens next, step? dialect scanner char = some (tokens, next) ∧ next.isCode = true ∧
      numbers tokens = [] ∧ ((ofDelimiter? char).isSome = true → next = .between) := by
  rcases finish?_of_isCode code with ⟨remaining, complete, unnumbered⟩
  rcases start?_code dialect plain with ⟨tokens, next, started, nextCode, none⟩
  cases delimiter : ofDelimiter? char with
  | some own =>
      refine ⟨_, .between, step?_delimiter delimiter complete, rfl, ?_, fun _ => rfl⟩
      rw [start?_delimiter delimiter] at started
      cases started
      simp [unnumbered, none]
  | none =>
      have cut : cut? dialect scanner char = some (remaining ++ tokens, next) := by
        simp [cut?, complete, started]
      have ended : numbers (remaining ++ tokens) = [] := by simp [unnumbered, none]
      cases scanner with
      | between => exact ⟨tokens, next, started, nextCode, none, by simp⟩
      | word read =>
          by_cases more : isWordChar char = true
          · exact ⟨[], .word (char :: read), by simp [step?, more], rfl, rfl, by simp⟩
          · exact ⟨_, next, by simp [step?, more, cut], nextCode, ended, by simp⟩
      | symbol read =>
          by_cases more : isSymbolChar char = true
          · exact ⟨[], .symbol (char :: read), by simp [step?, more], rfl, rfl, by simp⟩
          · exact ⟨_, next, by simp [step?, more, cut], nextCode, ended, by simp⟩
      | number _ | quoted _ _ | closed _ _ => cases code

/-- Code is read without a placeholder. If it ends with a delimiter, nothing is
open behind it. -/
theorem run?_code {scanner : Scanner} {text : List Char} (code : scanner.isCode = true)
    (plain : text.all isCodeChar = true) :
    ∃ tokens last, run? dialect scanner text = some (tokens, last) ∧ last.isCode = true ∧
      numbers tokens = [] ∧
        (text.getLast?.any (fun char => (ofDelimiter? char).isSome) = true → last = .between) := by
  induction text generalizing scanner with
  | nil => exact ⟨[], scanner, rfl, code, rfl, nofun⟩
  | cons char rest ih =>
      rw [List.all_cons, Bool.and_eq_true] at plain
      rcases step?_code dialect code plain.1 with
        ⟨first, next, head, nextCode, none, ended⟩
      rcases ih nextCode plain.2 with ⟨second, last, tail, lastCode, noneLater, endedLater⟩
      refine ⟨_, last, run?_cons head tail, lastCode, by simp [none, noneLater], ?_⟩
      cases rest with
      | nil =>
          cases tail
          simpa using ended
      | cons other others =>
          rw [List.getLast?_cons_cons]
          exact endedLater

theorem scan?_code {text : List Char} (plain : text.all isCodeChar = true) :
    ∃ tokens, scan? dialect text = some tokens ∧ numbers tokens = [] := by
  rcases @run?_code dialect .between text rfl plain with
    ⟨tokens, last, read, lastCode, none, -⟩
  rcases finish?_of_isCode lastCode with ⟨remaining, complete, noneLeft⟩
  exact ⟨tokens ++ remaining, scan?_eq_some_iff.2 ⟨_, _, _, read, complete, rfl⟩,
    by simp [none, noneLeft]⟩

/-- The placeholder of a parameter is scanned as one placeholder that carries
at most its own number. -/
theorem scan?_placeholder (role : Role) (index : Nat) :
    ∃ tokens, scan? dialect (dialect.placeholder role index) = some tokens ∧
      numbers tokens = [dialect.numbering index] := by
  rcases dialect with (_ | _ | _) | _ <;> cases role
  case json.postgres.plain => exact ⟨_, scan?_numbered index, rfl⟩
  case json.postgres.literal | json.postgres.document =>
    exact ⟨_, Fragment.scan?_castNumbered index, rfl⟩
  all_goals exact ⟨_, rfl, rfl⟩

end Token

namespace Piece

/-- Whether a piece begins with a delimiter. -/
def opens : Piece → Bool
  | .code text => Fragment.beginsDelimited text
  | _ => false

/-- Whether a piece ends with a delimiter. -/
def closes : Piece → Bool
  | .code text => text.toList.getLast?.any fun char => (Token.ofDelimiter? char).isSome
  | _ => false

/-- Whether the text of a piece is what it should be: code without quotations
and placeholders, or a constant in which no dialect finds an escape. -/
def isSound : Piece → Bool
  | .code text => text.toList.all Token.isCodeChar
  | .constant text => !text.toList.contains '\\'
  | .identifier _ | .parameter .. => true

/-- The numbers in the placeholders of a piece of which the given number is the
first that is free. -/
def numbers (dialect : Dialect) (index : Nat) : Piece → List (Option Nat)
  | .parameter .. => [dialect.numbering index]
  | _ => []

theorem scan?_chars (dialect : Dialect) (index : Nat) {piece : Piece}
    (sound : piece.isSound = true) :
    ∃ tokens, Token.scan? dialect (piece.chars dialect index) = some tokens ∧
      Token.numbers tokens = piece.numbers dialect index := by
  cases piece with
  | code text => exact Token.scan?_code dialect sound
  | identifier name =>
      exact ⟨_, Token.scan?_quoted dialect .name name.toList nofun, rfl⟩
  | constant text =>
      have plain : '\\' ∉ text.toList := by simpa [isSound] using sound
      exact ⟨_, Token.scan?_quoted dialect .constant text.toList fun _ => plain, rfl⟩
  | parameter role value => exact Token.scan?_placeholder dialect role index

end Piece

namespace Fragment

/-- Whether a fragment begins with a delimiter, if there is anything in it. -/
def opens (fragment : Fragment) : Bool := fragment.head?.all Piece.opens

/-- Whether a fragment ends with a delimiter, if there is anything in it. -/
def closes (fragment : Fragment) : Bool := fragment.getLast?.all Piece.closes

/-- Whether the pieces are sound and a delimiter stands between any two. -/
def isSpaced : Fragment → Bool
  | [] => true
  | piece :: rest => piece.isSound && (piece.closes || opens rest) && isSpaced rest

/-- Two spaced fragments may follow each other where a delimiter stands between them. -/
theorem isSpaced_append {first second : Fragment} (left : first.isSpaced = true)
    (right : second.isSpaced = true) (apart : (first.closes || second.opens) = true) :
    isSpaced (first ++ second) = true := by
  induction first with
  | nil => exact right
  | cons piece rest ih =>
      simp only [isSpaced, Bool.and_eq_true] at left
      rw [List.cons_append, isSpaced, left.1.1]
      cases rest with
      | nil =>
          have own : (piece.closes || second.opens) = true := by simpa [closes] using apart
          simp [own, right]
      | cons next others =>
          have tail : isSpaced ((next :: others) ++ second) = true := by
            apply ih left.2
            simpa [closes, List.getLast?_cons_cons] using apart
          have between : (piece.closes || opens ((next :: others) ++ second)) = true := left.1.2
          rw [between, tail]
          rfl

/-- The numbers in the placeholders of a fragment behind as many parameters as
`bound` says. -/
def numbers (dialect : Dialect) (bound : Nat) (fragment : Fragment) : List (Option Nat) :=
  (List.range' (bound + 1) fragment.parameters.length).map dialect.numbering

theorem numbers_cons (dialect : Dialect) (bound : Nat) (piece : Piece) (rest : Fragment) :
    numbers dialect bound (piece :: rest) =
      piece.numbers dialect (bound + 1) ++
        numbers dialect (bound + (parameters [piece]).length) rest := by
  cases piece with
  | parameter role value =>
      simp [numbers, parameters, Piece.parameter?, Piece.numbers, List.range'_succ]
  | code _ | identifier _ | constant _ =>
      rfl

/-- A piece that ends with a delimiter is scanned apart from what follows. -/
theorem scan?_append_of_closes {dialect : Dialect} {piece : Piece} {index : Nat}
    {rest : List Char} {left right : List Token} (closes : piece.closes = true)
    (sound : piece.isSound = true)
    (head : Token.scan? dialect (piece.chars dialect index) = some left)
    (tail : Token.scan? dialect rest = some right) :
    Token.scan? dialect (piece.chars dialect index ++ rest) = some (left ++ right) := by
  cases piece with
  | code text =>
      rcases @Token.run?_code dialect .between text.toList rfl sound with
        ⟨tokens, last, read, -, -, ended⟩
      rw [ended closes] at read
      have alone : Token.scan? dialect text.toList = some tokens := by
        simpa using Token.scan?_eq_some_iff.2 ⟨_, _, [], read, rfl, rfl⟩
      rw [Piece.chars] at head ⊢
      rw [alone, Option.some.injEq] at head
      rw [← head]
      exact Token.scan?_append read tail
  | identifier _ | constant _ | parameter _ _ => cases closes

/-- A fragment that begins with a delimiter is scanned apart from what stands
in front of it. -/
theorem scan?_append_of_opens {dialect : Dialect} {bound : Nat} {fragment : Fragment}
    {first : List Char} {left right : List Token} (opens : fragment.opens = true)
    (head : Token.scan? dialect first = some left)
    (tail : Token.scan? dialect (fragment.chars dialect bound) = some right) :
    Token.scan? dialect (first ++ fragment.chars dialect bound) = some (left ++ right) := by
  cases fragment with
  | nil =>
      cases tail
      simpa [chars] using head
  | cons piece rest =>
      cases piece with
      | code text =>
          rw [chars, Piece.chars] at tail ⊢
          have delimited : beginsDelimited text = true := opens
          cases characters : text.toList with
          | nil => simp [beginsDelimited, characters] at delimited
          | cons char others =>
              simp only [beginsDelimited, characters] at delimited
              rw [characters] at tail
              exact Token.scan?_append_delimiter head delimited tail
      | identifier _ | constant _ | parameter _ _ => cases opens

/-- The text of a spaced fragment has a placeholder for each parameter, in
their order, and each carries its own number or none. -/
theorem scan?_chars (dialect : Dialect) (bound : Nat) {fragment : Fragment}
    (spaced : fragment.isSpaced = true) :
    ∃ tokens, Token.scan? dialect (fragment.chars dialect bound) = some tokens ∧
      Token.numbers tokens = fragment.numbers dialect bound := by
  induction fragment generalizing bound with
  | nil => exact ⟨[], rfl, rfl⟩
  | cons piece rest ih =>
      simp only [isSpaced, Bool.and_eq_true, Bool.or_eq_true] at spaced
      rcases spaced with ⟨⟨sound, apart⟩, restSpaced⟩
      rcases piece.scan?_chars dialect (bound + 1) sound with ⟨left, leftScanned, leftNumbers⟩
      rcases ih (bound + (parameters [piece]).length) restSpaced with
        ⟨right, rightScanned, rightNumbers⟩
      refine ⟨left ++ right, ?_, ?_⟩
      · rw [chars]
        rcases apart with closes | opens
        · exact scan?_append_of_closes closes sound leftScanned rightScanned
        · exact scan?_append_of_opens opens leftScanned rightScanned
      · rw [Token.numbers_append, leftNumbers, rightNumbers, numbers_cons]

end Fragment

end DocTable.Sql
