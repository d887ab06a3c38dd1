/-!
# Quoting by doubling

A text between two quotation marks, in which every mark is written twice. `readQuoted?` is the rule
by which such a text is read again: a doubled mark is a mark, and a single one ends the text.
Reading what was written gives back the text and all that follows it.
-/

namespace DocTable

/-- The text with every mark doubled. -/
def doubled (mark : Char) : List Char → List Char
  | [] => []
  | char :: rest =>
    if char = mark then mark :: mark :: doubled mark rest else char :: doubled mark rest

/-- The text between marks. -/
def quoted (mark : Char) (text : List Char) : List Char := mark :: (doubled mark text ++ [mark])

/-- The rest of a quoted text behind its opening mark and what follows the closing one. -/
def readDoubled? (mark : Char) : List Char → Option (List Char × List Char)
  | [] => none
  | [char] => if char = mark then some ([], []) else none
  | char :: next :: rest =>
    if char = mark then
      if next = mark then (readDoubled? mark rest).map fun (text, tail) => (mark :: text, tail)
      else some ([], next :: rest)
    else (readDoubled? mark (next :: rest)).map fun (text, tail) => (char :: text, tail)

/-- A quoted text at the front and what follows it. -/
def readQuoted? (mark : Char) : List Char → Option (List Char × List Char)
  | [] => none
  | char :: rest => if char = mark then readDoubled? mark rest else none

theorem readDoubled?_doubled (mark : Char) (text tail : List Char) (ends : tail.head? ≠ some mark) :
    readDoubled? mark (doubled mark text ++ mark :: tail) = some (text, tail) := by
  induction text with
  | nil =>
    cases tail with
    | nil => simp [doubled, readDoubled?]
    | cons next rest =>
      have differs : next ≠ mark := by simpa using ends
      simp [doubled, readDoubled?, differs]
  | cons char rest ih =>
    by_cases same : char = mark
    · simp [doubled, same, readDoubled?, ih]
    · simp only [doubled, same, if_false, List.cons_append]
      cases more : doubled mark rest ++ mark :: tail with
      | nil => simp at more
      | cons next others =>
        rw [more] at ih
        simp [readDoubled?, same, ih]

/-- A quoted text reads back, with all that follows it, unless that begins with another mark. -/
theorem readQuoted?_quoted (mark : Char) (text tail : List Char) (ends : tail.head? ≠ some mark) :
    readQuoted? mark (quoted mark text ++ tail) = some (text, tail) := by
  simp [quoted, readQuoted?, readDoubled?_doubled mark text tail ends]

end DocTable
