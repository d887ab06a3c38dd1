import DocTable.Sql.Fragment

/-!
# Tokens of SQL text

How an engine splits the text of a statement into tokens. A scanner reads one
character at a time; a quoted name or string constant ends at a mark that no
second mark follows, and a backslash inside a constant is refused, since
engines disagree about it. Placeholders are tokens of their own and receive
the bound values afterwards, in the order of the text or by their numbers.

Texts can be scanned in parts: a blank, a parenthesis or a comma ends
whatever token stands before it.
-/

namespace DocTable.Sql

/-- What stands between quotation marks. -/
inductive Quotation where
  /-- The name of a table or a column. -/
  | name
  /-- A string constant. -/
  | constant
deriving DecidableEq, Repr

/-- The mark around a quotation. -/
def Quotation.mark (dialect : Dialect) : Quotation → Char
  | .name => dialect.identifierMark
  | .constant => '\''

/-- A token of SQL text. -/
inductive Token where
  /-- A keyword, the name of a function or a number. -/
  | word (text : String)
  /-- An operator. -/
  | symbol (text : String)
  | openParenthesis
  | closeParenthesis
  | comma
  | quotation (kind : Quotation) (text : String)
  /-- The place of a parameter, which may carry its number. -/
  | placeholder (number : Option Nat)
  /-- A parameter whose value has been filled in. -/
  | value (value : Value)
deriving DecidableEq, Repr

namespace Token

/-- Whether a character can be part of a word. -/
def isWordChar (char : Char) : Bool := char.isAlphanum || char == '_'

/-- Whether a character can be part of an operator. -/
def isSymbolChar (char : Char) : Bool := ['=', '<', '>', '-', '|', '*'].contains char

/-- What has been read since the last token. Text that is collected is in
reverse. -/
inductive Scanner where
  /-- Nothing but blanks. -/
  | between
  /-- The beginning of a word. -/
  | word (read : List Char)
  /-- The beginning of an operator. -/
  | symbol (read : List Char)
  /-- A dollar sign and the beginning of the number of a parameter. -/
  | number (digits : List Char)
  /-- A mark and the beginning of what it quotes. -/
  | quoted (kind : Quotation) (read : List Char)
  /-- The same and a mark, which ends the quotation unless another one follows. -/
  | closed (kind : Quotation) (read : List Char)
deriving Repr

/-- The token of a character that ends every token before it, if the character
is one of those; a blank has none. -/
def ofDelimiter? (char : Char) : Option (List Token) :=
  if char = ' ' then some []
  else if char = '(' then some [.openParenthesis]
  else if char = ')' then some [.closeParenthesis]
  else if char = ',' then some [.comma]
  else none

/-- The tokens that the end of the text completes. -/
def finish? : Scanner → Option (List Token)
  | .between => some []
  | .word read => some [.word (String.ofList read.reverse)]
  | .symbol read => some [.symbol (String.ofList read.reverse)]
  | .number digits => (decimalNumber? digits.reverse).map fun number => [.placeholder (some number)]
  | .quoted .. => none
  | .closed kind read => some [.quotation kind (String.ofList read.reverse)]

variable (dialect : Dialect)

/-- One character after a complete token. -/
def start? (char : Char) : Option (List Token × Scanner) :=
  match ofDelimiter? char with
  | some tokens => some (tokens, .between)
  | none =>
      if isWordChar char then some ([], .word [char])
      else if isSymbolChar char then some ([], .symbol [char])
      else if char = '?' then some ([.placeholder none], .between)
      else if char = '$' then some ([], .number [])
      else if char = Quotation.mark dialect .constant then some ([], .quoted .constant [])
      else if char = Quotation.mark dialect .name then some ([], .quoted .name [])
      else none

/-- The end of the token that is being read and one character after it. -/
def cut? (scanner : Scanner) (char : Char) : Option (List Token × Scanner) := do
  let completed ← finish? scanner
  let (tokens, scanner) ← start? dialect char
  return (completed ++ tokens, scanner)

/-- One character of the text: the tokens that it completes and the state
behind it. -/
def step? (scanner : Scanner) (char : Char) : Option (List Token × Scanner) :=
  match scanner with
  | .between => start? dialect char
  | .word read =>
      if isWordChar char then some ([], .word (char :: read)) else cut? dialect scanner char
  | .symbol read =>
      if isSymbolChar char then some ([], .symbol (char :: read)) else cut? dialect scanner char
  | .number digits =>
      if char.isDigit then some ([], .number (char :: digits)) else cut? dialect scanner char
  | .quoted kind read =>
      if char = kind.mark dialect then some ([], .closed kind read)
      else if kind = .constant ∧ char = '\\' then none
      else some ([], .quoted kind (char :: read))
  | .closed kind read =>
      if char = kind.mark dialect then some ([], .quoted kind (char :: read))
      else cut? dialect scanner char

/-- The tokens that a text completes and the state behind it. -/
def run? (scanner : Scanner) : List Char → Option (List Token × Scanner)
  | [] => some ([], scanner)
  | char :: rest => do
      let (tokens, scanner) ← step? dialect scanner char
      let (more, scanner) ← run? scanner rest
      return (tokens ++ more, scanner)

/-- The tokens of a text, or `none` if it does not split into tokens. -/
def scan? (text : List Char) : Option (List Token) := do
  let (tokens, scanner) ← run? dialect .between text
  return tokens ++ (← finish? scanner)

/-- The value of the parameter with a number, which counts from one. -/
def parameter? (parameters : List Value) : Nat → Option Value
  | 0 => none
  | index + 1 => parameters[index]?

/-- Puts the bound values in place of the placeholders. A placeholder without
a number stands for the value behind those that are used already. -/
def fill? (parameters : List Value) : (used : Nat) → List Token → Option (List Token)
  | _, [] => some []
  | used, .placeholder number :: rest => do
      let value ← parameter? parameters (number.getD (used + 1))
      return .value value :: (← fill? parameters (used + 1) rest)
  | used, token :: rest => do return token :: (← fill? parameters used rest)

/-- The tokens of a text with their values. The parameters are those of the whole statement, of
which the text in front of this one uses as many as `used` says. -/
def read? (parameters : List Value) (used : Nat) (text : String) : Option (List Token) := do
  let tokens ← scan? dialect text.toList
  fill? parameters used tokens

/-- How many parameters tokens take. -/
def placeholders (tokens : List Token) : Nat :=
  tokens.countP fun token => token matches .placeholder _

/-! ## Scanning in parts -/

variable {dialect}

theorem run?_cons {scanner middle last : Scanner} {char : Char} {rest : List Char}
    {first second : List Token} (head : step? dialect scanner char = some (first, middle))
    (tail : run? dialect middle rest = some (second, last)) :
    run? dialect scanner (char :: rest) = some (first ++ second, last) := by
  simp [run?, head, tail]

/-- A text is scanned by scanning its first part and going on from there. -/
theorem run?_append {scanner middle last : Scanner} {first second : List Char}
    {left right : List Token} (head : run? dialect scanner first = some (left, middle))
    (tail : run? dialect middle second = some (right, last)) :
    run? dialect scanner (first ++ second) = some (left ++ right, last) := by
  induction first generalizing scanner left with
  | nil =>
      simp only [run?, Option.some.injEq, Prod.mk.injEq] at head
      rcases head with ⟨rfl, rfl⟩
      exact tail
  | cons char rest ih =>
      simp only [run?] at head
      cases stepped : step? dialect scanner char with
      | none => simp [stepped] at head
      | some next =>
          rcases next with ⟨own, next⟩
          cases read : run? dialect next rest with
          | none => simp [stepped, read] at head
          | some result =>
              rcases result with ⟨more, final⟩
              simp only [stepped, read, Option.pure_def, Option.bind_eq_bind, Option.bind_some,
                Option.some.injEq, Prod.mk.injEq] at head
              rcases head with ⟨rfl, rfl⟩
              rw [List.append_assoc]
              exact run?_cons stepped (ih read)

theorem scan?_eq_some_iff {text : List Char} {tokens : List Token} :
    scan? dialect text = some tokens ↔ ∃ completed scanner remaining,
      run? dialect .between text = some (completed, scanner) ∧
        finish? scanner = some remaining ∧ tokens = completed ++ remaining := by
  constructor
  · intro scanned
    rw [scan?] at scanned
    cases read : run? dialect .between text with
    | none => simp [read] at scanned
    | some result =>
        rcases result with ⟨completed, scanner⟩
        cases complete : finish? scanner with
        | none => simp [read, complete] at scanned
        | some remaining =>
            simp only [read, complete, Option.pure_def, Option.bind_eq_bind, Option.bind_some,
              Option.some.injEq] at scanned
            exact ⟨completed, scanner, remaining, rfl, complete, scanned.symm⟩
  · intro found
    rcases found with ⟨completed, scanner, remaining, read, complete, rfl⟩
    simp [scan?, read, complete]

/-- The first part of a text may be scanned alone if no token is open at its end. -/
theorem scan?_append {first second : List Char} {left right : List Token}
    (head : run? dialect .between first = some (left, .between))
    (tail : scan? dialect second = some right) :
    scan? dialect (first ++ second) = some (left ++ right) := by
  rcases scan?_eq_some_iff.1 tail with ⟨completed, scanner, remaining, read, complete, rfl⟩
  rw [← List.append_assoc]
  exact scan?_eq_some_iff.2 ⟨_, scanner, remaining, run?_append head read, complete, rfl⟩

theorem start?_delimiter {char : Char} {tokens : List Token}
    (delimiter : ofDelimiter? char = some tokens) :
    start? dialect char = some (tokens, .between) := by
  rw [start?, delimiter]

/-- A delimiter is no mark and no part of a word, an operator or a number. -/
theorem step?_delimiter {scanner : Scanner} {char : Char} {completed tokens : List Token}
    (delimiter : ofDelimiter? char = some tokens) (complete : finish? scanner = some completed) :
    step? dialect scanner char = some (completed ++ tokens, .between) := by
  have cut : cut? dialect scanner char = some (completed ++ tokens, .between) := by
    rw [cut?, complete, start?_delimiter delimiter]
    rfl
  have isDelimiter : char = ' ' ∨ char = '(' ∨ char = ')' ∨ char = ',' := by
    revert delimiter
    unfold ofDelimiter?
    grind
  have plain : isWordChar char = false ∧ isSymbolChar char = false ∧ char.isDigit = false := by
    rcases isDelimiter with rfl | rfl | rfl | rfl <;> decide
  have unquoted (kind : Quotation) : char ≠ kind.mark dialect := by
    cases kind <;> rcases dialect with (_ | _ | _) | _ <;>
      rcases isDelimiter with rfl | rfl | rfl | rfl <;> decide
  cases scanner with
  | between =>
      simp only [finish?, Option.some.injEq] at complete
      subst complete
      exact start?_delimiter delimiter
  | word read => simp [step?, plain.1, cut]
  | symbol read => simp [step?, plain.2.1, cut]
  | number digits => simp [step?, plain.2.2, cut]
  | quoted kind read => simp [finish?] at complete
  | closed kind read => simp [step?, unquoted kind, cut]

theorem scan?_append_delimiter {first second : List Char} {left right : List Token} {char : Char}
    (head : scan? dialect first = some left) (delimiter : (ofDelimiter? char).isSome)
    (tail : scan? dialect (char :: second) = some right) :
    scan? dialect (first ++ char :: second) = some (left ++ right) := by
  rcases Option.isSome_iff_exists.1 delimiter with ⟨own, delimiter⟩
  rcases scan?_eq_some_iff.1 head with ⟨completed, scanner, remaining, read, complete, rfl⟩
  have whole : run? dialect .between (first ++ [char]) =
      some (completed ++ (remaining ++ own), .between) := by
    apply run?_append read
    simp [run?, step?_delimiter delimiter complete]
  have alone : run? dialect .between [char] = some (own, .between) := by
    simp [run?, step?, start?_delimiter delimiter]
  -- Behind the delimiter both readings are in the same state.
  rcases scan?_eq_some_iff.1 tail with ⟨later, last, final, rest, finished, rfl⟩
  cases behind : run? dialect .between second with
  | none => simp [run?, step?, start?_delimiter delimiter, behind] at rest
  | some result =>
      rcases result with ⟨more, state⟩
      have same := run?_append alone behind
      rw [List.singleton_append, rest, Option.some.injEq, Prod.mk.injEq] at same
      rcases same with ⟨rfl, rfl⟩
      have joined := run?_append whole behind
      rw [List.append_assoc, List.singleton_append] at joined
      exact scan?_eq_some_iff.2 ⟨_, _, _, joined, finished, by simp⟩

theorem run?_number (read : List Char) {digits : List Char}
    (sound : ∀ char ∈ digits, char.isDigit = true) :
    run? dialect (.number read) digits = some ([], .number (digits.reverse ++ read)) := by
  induction digits generalizing read with
  | nil => rfl
  | cons char rest ih =>
      have head : step? dialect (.number read) char = some ([], .number (char :: read)) := by
        simp [step?, sound char (by simp)]
      simpa using run?_cons head (ih _ fun other member => sound other (by simp [member]))

theorem scan?_numbered (index : Nat) :
    scan? dialect ('$' :: decimal index) = some [.placeholder (some index)] := by
  have head : step? dialect .between '$' = some ([], .number []) := rfl
  have isDigits (char : Char) (member : char ∈ decimal index) : char.isDigit = true :=
    isDigit_of_mem_decimal member
  have read := run?_cons head (run?_number [] isDigits)
  have digits : decimal index ≠ [] ∧ (decimal index).all Char.isDigit = true := by
    constructor
    · exact Nat.toDigits_ne_nil
    · exact List.all_eq_true.2 isDigits
  apply scan?_eq_some_iff.2
  refine ⟨_, _, [.placeholder (some index)], read, ?_, rfl⟩
  simp [finish?, decimalNumber?, digits.1, digits.2]

theorem run?_doubled {kind : Quotation} (read : List Char) {text : List Char}
    (sound : kind = .constant → '\\' ∉ text) :
    run? dialect (.quoted kind read) (doubled (kind.mark dialect) text) =
      some ([], .quoted kind (text.reverse ++ read)) := by
  induction text generalizing read with
  | nil => rfl
  | cons char rest ih =>
      have later (read : List Char) := ih read fun isConstant member =>
        sound isConstant (List.mem_cons_of_mem _ member)
      by_cases mark : char = kind.mark dialect
      · have first : step? dialect (.quoted kind read) char = some ([], .closed kind read) := by
          simp [step?, mark]
        have second : step? dialect (.closed kind read) char =
            some ([], .quoted kind (char :: read)) := by
          simp [step?, mark]
        have both := run?_cons first (run?_cons second (later (char :: read)))
        simpa [doubled, ← mark] using both
      · have escaped : ¬(kind = .constant ∧ char = '\\') := by
          intro found
          rcases found with ⟨isConstant, rfl⟩
          exact sound isConstant (by simp)
        have head : step? dialect (.quoted kind read) char =
            some ([], .quoted kind (char :: read)) := by
          simp [step?, mark, escaped]
        simpa [doubled, mark] using run?_cons head (later (char :: read))

theorem scan?_quoted (dialect : Dialect) (kind : Quotation) (text : List Char)
    (sound : kind = .constant → '\\' ∉ text) :
    scan? dialect (quoted (kind.mark dialect) text) =
      some [.quotation kind (String.ofList text)] := by
  have opening : step? dialect .between (kind.mark dialect) = some ([], .quoted kind []) := by
    cases kind <;> rcases dialect with (_ | _ | _) | _ <;> rfl
  have closing : run? dialect (.quoted kind (text.reverse ++ [])) [kind.mark dialect] =
      some ([], .closed kind text.reverse) := by
    simp [run?, step?]
  have read := run?_cons opening (run?_append (run?_doubled [] sound) closing)
  apply scan?_eq_some_iff.2
  refine ⟨_, _, [.quotation kind (String.ofList text)], read, ?_, rfl⟩
  simp [finish?]

@[simp] theorem placeholders_append (first second : List Token) :
    placeholders (first ++ second) = placeholders first + placeholders second :=
  List.countP_append

/-- The second of two token lists goes on with the parameters that the first
one left. -/
theorem fill?_append {parameters : List Value} {used : Nat} {first second left right : List Token}
    (head : fill? parameters used first = some left)
    (tail : fill? parameters (used + placeholders first) second = some right) :
    fill? parameters used (first ++ second) = some (left ++ right) := by
  induction first generalizing used left with
  | nil =>
      simp only [fill?, Option.some.injEq] at head
      subst head
      exact tail
  | cons token rest ih =>
      cases token with
      | placeholder number =>
          simp only [fill?] at head
          cases value : parameter? parameters (number.getD (used + 1)) with
          | none => simp [value] at head
          | some value' =>
              cases more : fill? parameters (used + 1) rest with
              | none => simp [value, more] at head
              | some others =>
                  have count : placeholders (.placeholder number :: rest) =
                      placeholders rest + 1 := by
                    simp [placeholders]
                  rw [count, Nat.add_comm (placeholders rest), ← Nat.add_assoc] at tail
                  simp only [value, more, Option.pure_def, Option.bind_eq_bind, Option.bind_some,
                    Option.some.injEq] at head
                  subst head
                  simp [fill?, value, ih more tail]
      | _ =>
          simp only [fill?] at head
          cases more : fill? parameters used rest with
          | none => simp [more] at head
          | some others =>
              simp only [more, Option.pure_def, Option.bind_eq_bind, Option.bind_some,
                Option.some.injEq] at head
              subst head
              simp [fill?, ih more (by simpa [placeholders] using tail)]

end Token

end DocTable.Sql
