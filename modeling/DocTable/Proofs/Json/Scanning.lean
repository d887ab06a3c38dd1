import DocTable.Json.Printer
import DocTable.Proofs.Json.Numeral
import DocTable.Proofs.Text.Hex

/-!
# Printed values split into tokens

The compact text of a value splits into the tokens of the value. Only numbers
may change on the way: a number is read as whatever its text stands for, which
`renumbered?` records. What follows a value in a text begins with a comma or a
closing bracket, and so ends any token before it.
-/

namespace DocTable

namespace Json

mutual

/-- The value with every number as it is read from its text. -/
def renumbered? : Json → Option Json
  | .null => some .null
  | .bool value => some (.bool value)
  | .number value => (Number.ofText? value.text).map .number
  | .string value => some (.string value)
  | .array elements => (renumberedElements? elements).map .array
  | .object ⟨entries⟩ => (renumberedEntries? entries).map fun entries => .object ⟨entries⟩

/-- The elements with every number as it is read from its text. -/
def renumberedElements? : List Json → Option (List Json)
  | [] => some []
  | element :: rest => do return (← renumbered? element) :: (← renumberedElements? rest)

/-- The entries with every number as it is read from its text. -/
def renumberedEntries? : List (String × Json) → Option (List (String × Json))
  | [] => some []
  | (key, value) :: rest => do return (key, ← renumbered? value) :: (← renumberedEntries? rest)

end

theorem renumberedElements?_cons {element : Json} {rest renumbered : List Json} :
    renumberedElements? (element :: rest) = some renumbered ↔
      ∃ own others, renumbered? element = some own ∧ renumberedElements? rest = some others ∧
        renumbered = own :: others := by
  rw [renumberedElements?]
  cases renumbered? element <;> cases renumberedElements? rest <;> simp [eq_comm]

theorem renumberedEntries?_cons {key : String} {value : Json}
    {rest renumbered : List (String × Json)} :
    renumberedEntries? ((key, value) :: rest) = some renumbered ↔
      ∃ own others, renumbered? value = some own ∧ renumberedEntries? rest = some others ∧
        renumbered = (key, own) :: others := by
  rw [renumberedEntries?]
  cases renumbered? value <;> cases renumberedEntries? rest <;> simp [eq_comm]

theorem keys_of_renumberedEntries? {entries renumbered : List (String × Json)}
    (read : renumberedEntries? entries = some renumbered) :
    renumbered.map (·.1) = entries.map (·.1) := by
  induction entries generalizing renumbered with
  | nil =>
      cases read
      rfl
  | cons entry rest ih =>
      rcases renumberedEntries?_cons.1 read with ⟨own, others, -, later, rfl⟩
      rw [List.map_cons, List.map_cons, ih later]

mutual

/-- The tokens of a value. -/
def tokens : Json → List Token
  | .null => [.null]
  | .bool value => [.bool value]
  | .number value => [.number value]
  | .string value => [.string value]
  | .array [] => [.openArray, .closeArray]
  | .array (first :: rest) => .openArray :: (tokens first ++ moreElementTokens rest)
  | .object ⟨[]⟩ => [.openObject, .closeObject]
  | .object ⟨(key, value) :: rest⟩ =>
      .openObject :: .string key :: .colon :: (tokens value ++ moreEntryTokens rest)

/-- The tokens of further elements, each behind a comma, and of the end of the array. -/
def moreElementTokens : List Json → List Token
  | [] => [.closeArray]
  | element :: rest => .comma :: (tokens element ++ moreElementTokens rest)

/-- The tokens of further entries, each behind a comma, and of the end of the object. -/
def moreEntryTokens : List (String × Json) → List Token
  | [] => [.closeObject]
  | (key, value) :: rest =>
      .comma :: .string key :: .colon :: (tokens value ++ moreEntryTokens rest)

end

namespace Token

/-- What may follow a value: the end of the text, or a character that is no
part of a number and of a word. -/
def Delimits : List Char → Prop
  | [] => True
  | char :: _ => char = ',' ∨ char = ']' ∨ char = '}'

/-- A token that is complete at the end of a text is complete in front of a delimiter. -/
theorem scanFrom?_of_delimits {scanner : Scanner} {rest : List Char} (delimits : Delimits rest)
    (open_token : ∃ read, scanner = .number read ∨ scanner = .word read) :
    scanFrom? scanner rest = (do return (← finish? scanner) ++ (← scanFrom? .between rest)) := by
  rcases open_token with ⟨read, open_token⟩
  cases rest with
  | nil =>
      simp only [scanFrom?]
      cases finish? scanner <;> simp [finish?]
  | cons char rest =>
      have plain : isNumberChar char = false ∧ char.isLower = false := by
        rcases delimits with rfl | rfl | rfl <;> exact ⟨rfl, rfl⟩
      have step : step? scanner char = (do
          let completed ← finish? scanner
          let started ← start? char
          return (completed ++ started.1, started.2)) := by
        rcases open_token with rfl | rfl
        · simp only [step?, plain.1, finish?]
          cases Number.ofText? read.reverse <;> rfl
        · simp only [step?, plain.2, finish?]
          cases ofWord? read.reverse <;> rfl
      simp only [scanFrom?, step]
      cases finish? scanner with
      | none => rfl
      | some completed =>
          have between : step? .between char = start? char := rfl
          rw [between]
          cases start? char with
          | none => rfl
          | some started =>
              rcases started with ⟨tokens, scanner⟩
              cases scanned : scanFrom? scanner rest <;> simp [scanned]

theorem scanFrom?_cons {scanner next : Scanner} {char : Char} {rest : List Char}
    (step : step? scanner char = some ([], next)) :
    scanFrom? scanner (char :: rest) = scanFrom? next rest := by
  simp [scanFrom?, step]

/-- The four digits of a control character are read as the character. -/
theorem scanFrom?_unicode (read : List Char) {char : Char} (control : char.toNat < 0x20)
    (rest : List Char) :
    scanFrom? (.unicode read none []) (hexDigits 4 char.toNat ++ rest) =
      scanFrom? (.string (char :: read)) rest := by
  obtain ⟨first, second, third, fourth, written, sound⟩ : ∃ first second third fourth,
      hexDigits 4 char.toNat = [first, second, third, fourth] ∧
        ∀ digit ∈ [first, second, third], (hexValue? digit).isSome = true := by
    refine ⟨_, _, _, _, rfl, ?_⟩
    intro digit member
    simp only [List.mem_cons, List.not_mem_nil, or_false] at member
    rcases member with rfl | rfl | rfl <;>
      rw [hexValue?_hexDigit (Nat.mod_lt _ (by decide))] <;> rfl
  have number : hexNumber? [first, second, third, fourth] = some char.toNat := by
    have small : char.toNat < Nat.pow 16 4 := Nat.lt_trans control (by decide)
    rw [← written, hexNumber?_hexDigits, Nat.mod_eq_of_lt small]
  have unit : codeUnit? read none char.toNat = some (.string (char :: read)) := by
    have low : ¬0xD800 ≤ char.toNat := by omega
    have lower : ¬0xDC00 ≤ char.toNat := by omega
    simp [codeUnit?, low, lower]
  have one : step? (.unicode read none []) first = some ([], .unicode read none [first]) := by
    simp [step?, sound first (by simp)]
  have two : step? (.unicode read none [first]) second =
      some ([], .unicode read none [second, first]) := by
    simp [step?, sound second (by simp)]
  have three : step? (.unicode read none [second, first]) third =
      some ([], .unicode read none [third, second, first]) := by
    simp [step?, sound third (by simp)]
  have four : step? (.unicode read none [third, second, first]) fourth =
      some ([], .string (char :: read)) := by
    simp [step?, number, unit]
  rw [written]
  simp only [List.cons_append, List.nil_append]
  rw [scanFrom?_cons one, scanFrom?_cons two, scanFrom?_cons three, scanFrom?_cons four]

/-- A character of a string is read back, whether it is escaped or not. -/
theorem scanFrom?_escapeChar (read : List Char) (char : Char) (rest : List Char) :
    scanFrom? (.string read) (escapeChar char ++ rest) =
      scanFrom? (.string (char :: read)) rest := by
  have opened : step? (.string read) '\\' = some ([], .escape read) := rfl
  unfold escapeChar
  cases escape : escapeLetter? char with
  | some letter =>
      have undone : letter ≠ 'u' ∧ unescape? letter = some char := by
        unfold escapeLetter? at escape
        split at escape <;> cases escape <;> decide
      have closed : step? (.escape read) letter = some ([], .string (char :: read)) := by
        simp [step?, undone]
      simp only [List.cons_append, List.nil_append]
      rw [scanFrom?_cons opened, scanFrom?_cons closed]
  | none =>
      by_cases control : char.toNat < 0x20
      · have unicode : step? (.escape read) 'u' = some ([], .unicode read none []) := rfl
        simp only [control, if_true, List.cons_append]
        rw [scanFrom?_cons opened, scanFrom?_cons unicode, scanFrom?_unicode read control]
      · have unescaped : char ≠ '"' ∧ char ≠ '\\' := by
          constructor <;> rintro rfl <;> cases escape
        have plain : step? (.string read) char = some ([], .string (char :: read)) := by
          simp only [step?, unescaped.1, unescaped.2, control, if_false]
        simp only [control, if_false, List.cons_append, List.nil_append]
        rw [scanFrom?_cons plain]

theorem scanFrom?_escaped (read text : List Char) (rest : List Char) :
    scanFrom? (.string read) (text.flatMap escapeChar ++ '"' :: rest) =
      (scanFrom? .between rest).map
        (.string (String.ofList (read.reverse ++ text)) :: ·) := by
  induction text generalizing read with
  | nil =>
      have closed : step? (.string read) '"' =
          some ([.string (String.ofList read.reverse)], .between) := rfl
      cases scanned : scanFrom? .between rest <;> simp [scanFrom?, closed, scanned]
  | cons char text ih =>
      rw [List.flatMap_cons, List.append_assoc, scanFrom?_escapeChar, ih]
      simp

theorem scanFrom?_quoted (text rest : List Char) :
    scanFrom? .between (quoted text ++ rest) =
      (scanFrom? .between rest).map (.string (String.ofList text) :: ·) := by
  have opened : step? .between '"' = some ([], .string []) := rfl
  rw [quoted, List.cons_append, List.cons_append, scanFrom?_cons opened, List.append_assoc,
    List.singleton_append, scanFrom?_escaped]
  rfl

/-! ## Values -/

theorem scanFrom?_single {char : Char} {token : Token}
    (single : start? char = some ([token], .between)) (rest : List Char) :
    scanFrom? .between (char :: rest) = (scanFrom? .between rest).map (token :: ·) := by
  have step : step? .between char = some ([token], .between) := single
  cases scanned : scanFrom? .between rest <;> simp [scanFrom?, step, scanned]

/-- Characters that only extend what has been read of a token. -/
theorem scanFrom?_piece (reading : List Char → Scanner) (read : List Char) {piece : List Char}
    (extended : ∀ char ∈ piece, ∀ read,
      step? (reading read) char = some ([], reading (char :: read)))
    (rest : List Char) :
    scanFrom? (reading read) (piece ++ rest) =
      scanFrom? (reading (piece.reverse ++ read)) rest := by
  induction piece generalizing read with
  | nil => rfl
  | cons char piece ih =>
      have others : ∀ other ∈ piece, ∀ read,
          step? (reading read) other = some ([], reading (other :: read)) := by
        intro other member
        exact extended other (List.mem_cons_of_mem _ member)
      rw [List.cons_append, scanFrom?_cons (extended char List.mem_cons_self read), ih _ others]
      simp

/-- The word of a value is one token. -/
theorem scanFrom?_word {first : Char} {word : List Char} {token : Token} {rest : List Char}
    (lower : word.all Char.isLower = true) (plain : start? first = some ([], .word [first]))
    (isToken : ofWord? (first :: word) = some token)
    (delimits : Delimits rest) :
    scanFrom? .between (first :: word ++ rest) = (scanFrom? .between rest).map (token :: ·) := by
  have step : step? .between first = some ([], .word [first]) := plain
  have extended : ∀ char ∈ word, ∀ read,
      step? (.word read) char = some ([], .word (char :: read)) := by
    intro char member read
    simp [step?, List.all_eq_true.1 lower char member]
  rw [List.cons_append, scanFrom?_cons step, scanFrom?_piece .word [first] extended,
    scanFrom?_of_delimits delimits ⟨_, .inr rfl⟩]
  cases scanFrom? .between rest <;> simp [finish?, isToken]

theorem scanFrom?_number (number : Number) {rest : List Char} (delimits : Delimits rest) :
    scanFrom? .between (number.text ++ rest) = (do
      let value ← Number.ofText? number.text
      return .number value :: (← scanFrom? .between rest)) := by
  rcases number.beginsNumber_text with ⟨first, others, text, leading⟩
  have extended : ∀ char ∈ others, ∀ read,
      step? (.number read) char = some ([], .number (char :: read)) := by
    intro char member read
    have sound : isNumberChar char = true := by
      apply Number.isNumberChar_of_mem_text
      rw [text]
      simp [member]
    simp [step?, sound]
  have step : step? .between first = some ([], .number [first]) := by
    rcases leading with rfl | digit
    · rfl
    · have unquoted : isSpace first = false ∧ first ≠ '"' := by
        constructor
        · rw [← Bool.not_eq_true]
          intro space
          simp only [isSpace, Bool.or_eq_true, beq_iff_eq] at space
          rcases space with ((rfl | rfl) | rfl) | rfl <;> cases digit
        · rintro rfl
          cases digit
      simp [step?, start?, unquoted, digit]
  rw [text, List.cons_append, scanFrom?_cons step, scanFrom?_piece .number [first] extended,
    scanFrom?_of_delimits delimits ⟨_, .inl rfl⟩]
  cases read : Number.ofText? (first :: others) <;> cases scanFrom? .between rest <;>
    simp [finish?, read]

theorem delimits_moreElements (elements : List Json) (rest : List Char) :
    Delimits (moreElements elements ++ ']' :: rest) := by
  cases elements with
  | nil => exact .inr (.inl rfl)
  | cons element others => exact .inl rfl

theorem delimits_moreEntries (entries : List (String × Json)) (rest : List Char) :
    Delimits (moreEntries entries ++ '}' :: rest) := by
  cases entries with
  | nil => exact .inr (.inr rfl)
  | cons entry others => exact .inl rfl

mutual

/-- A printed value splits into its tokens, its numbers as they are read. -/
theorem scanFrom?_chars (value : Json) {rest : List Char} (delimits : Delimits rest) :
    scanFrom? .between (value.chars ++ rest) = (do
      let value ← renumbered? value
      return tokens value ++ (← scanFrom? .between rest)) := by
  match value with
  | .null =>
      rw [chars, scanFrom?_word rfl rfl rfl delimits]
      cases scanFrom? .between rest <;> rfl
  | .bool true =>
      rw [chars, scanFrom?_word rfl rfl rfl delimits]
      cases scanFrom? .between rest <;> rfl
  | .bool false =>
      rw [chars, scanFrom?_word rfl rfl rfl delimits]
      cases scanFrom? .between rest <;> rfl
  | .number own =>
      rw [chars, scanFrom?_number own delimits, renumbered?]
      cases Number.ofText? own.text <;> rfl
  | .string text =>
      rw [chars, scanFrom?_quoted, renumbered?, String.ofList_toList]
      cases scanFrom? .between rest <;> rfl
  | .array [] =>
      rw [chars, List.cons_append, scanFrom?_single rfl, List.cons_append, scanFrom?_single rfl]
      cases scanned : scanFrom? .between rest <;>
        simp [renumbered?, renumberedElements?, tokens, scanned]
  | .array (first :: others) =>
      have split : (Json.array (first :: others)).chars ++ rest =
          '[' :: (first.chars ++ (moreElements others ++ ']' :: rest)) := by
        simp [chars]
      rw [split, scanFrom?_single rfl, scanFrom?_chars first (delimits_moreElements others rest),
        scanFrom?_moreElements others rest, renumbered?, renumberedElements?]
      cases renumbered? first <;> cases renumberedElements? others <;>
        cases scanFrom? .between rest <;> simp [tokens]
  | .object ⟨[]⟩ =>
      rw [chars, List.cons_append, scanFrom?_single rfl, List.cons_append, scanFrom?_single rfl]
      cases scanned : scanFrom? .between rest <;>
        simp [renumbered?, renumberedEntries?, tokens, scanned]
  | .object ⟨(key, value) :: others⟩ =>
      have split : (Json.object ⟨(key, value) :: others⟩).chars ++ rest =
          '{' :: (quoted key.toList ++ (':' :: (value.chars ++
            (moreEntries others ++ '}' :: rest)))) := by
        simp [chars]
      rw [split, scanFrom?_single rfl, scanFrom?_quoted, scanFrom?_single rfl,
        scanFrom?_chars value (delimits_moreEntries others rest),
        scanFrom?_moreEntries others rest, renumbered?, renumberedEntries?, String.ofList_toList]
      cases renumbered? value <;> cases renumberedEntries? others <;>
        cases scanFrom? .between rest <;> simp [tokens]

theorem scanFrom?_moreElements (elements : List Json) (rest : List Char) :
    scanFrom? .between (moreElements elements ++ ']' :: rest) = (do
      let elements ← renumberedElements? elements
      return moreElementTokens elements ++ (← scanFrom? .between rest)) := by
  match elements with
  | [] =>
      rw [moreElements, List.nil_append, scanFrom?_single rfl]
      cases scanFrom? .between rest <;> simp [renumberedElements?, moreElementTokens]
  | element :: others =>
      have split : moreElements (element :: others) ++ ']' :: rest =
          ',' :: (element.chars ++ (moreElements others ++ ']' :: rest)) := by
        simp [moreElements]
      rw [split, scanFrom?_single rfl, scanFrom?_chars element (delimits_moreElements others rest),
        scanFrom?_moreElements others rest, renumberedElements?]
      cases renumbered? element <;> cases renumberedElements? others <;>
        cases scanFrom? .between rest <;> simp [moreElementTokens]

theorem scanFrom?_moreEntries (entries : List (String × Json)) (rest : List Char) :
    scanFrom? .between (moreEntries entries ++ '}' :: rest) = (do
      let entries ← renumberedEntries? entries
      return moreEntryTokens entries ++ (← scanFrom? .between rest)) := by
  match entries with
  | [] =>
      rw [moreEntries, List.nil_append, scanFrom?_single rfl]
      cases scanFrom? .between rest <;> simp [renumberedEntries?, moreEntryTokens]
  | (key, value) :: others =>
      have split : moreEntries ((key, value) :: others) ++ '}' :: rest =
          ',' :: (quoted key.toList ++ (':' :: (value.chars ++
            (moreEntries others ++ '}' :: rest)))) := by
        simp [moreEntries]
      rw [split, scanFrom?_single rfl, scanFrom?_quoted, scanFrom?_single rfl,
        scanFrom?_chars value (delimits_moreEntries others rest),
        scanFrom?_moreEntries others rest, renumberedEntries?, String.ofList_toList]
      cases renumbered? value <;> cases renumberedEntries? others <;>
        cases scanFrom? .between rest <;> simp [moreEntryTokens]

end

/-- The tokens of the text of a value are those of the value as its numbers are read. -/
theorem scan?_text (value : Json) :
    scan? value.text.toList = (renumbered? value).map tokens := by
  have scanned := @scanFrom?_chars value [] trivial
  rw [List.append_nil] at scanned
  rw [scan?, text, String.toList_ofList, scanned]
  cases renumbered? value <;> simp [scanFrom?, finish?]

end Token

end Json

end DocTable
