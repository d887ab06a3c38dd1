/-!
# Splitting at a separator

`splitAt` cuts a text at every occurrence of a separator, so there is always at least one part and
parts may be empty. `joinWith` puts the separator back between the parts and undoes the cut.
-/

namespace DocTable

/-- The parts of a text between the occurrences of a separator. -/
def splitAt (separator : Char) : List Char → List (List Char)
  | [] => [[]]
  | char :: rest =>
    if char = separator then [] :: splitAt separator rest
    else match splitAt separator rest with
      | [] => [[char]]
      | first :: others => (char :: first) :: others

/-- The parts one after the other with a separator between them. -/
def joinWith (separator : List Char) : List (List Char) → List Char
  | [] => []
  | [part] => part
  | part :: next :: rest => part ++ separator ++ joinWith separator (next :: rest)

/-- There is always a part. -/
theorem splitAt_ne_nil (separator : Char) (text : List Char) : splitAt separator text ≠ [] := by
  cases text with
  | nil => simp [splitAt]
  | cons char rest =>
    by_cases cut : char = separator
    · simp [splitAt, cut]
    · simp only [splitAt, cut, if_false]
      split <;> simp

/-- Putting the separators back gives the text. -/
theorem joinWith_splitAt (separator : Char) (text : List Char) :
    joinWith [separator] (splitAt separator text) = text := by
  induction text with
  | nil => rfl
  | cons char rest ih =>
    have nonempty := splitAt_ne_nil separator rest
    by_cases cut : char = separator
    · cases parts : splitAt separator rest with
      | nil => exact absurd parts nonempty
      | cons first others =>
        rw [parts] at ih
        simp [splitAt, cut, parts, joinWith, ih]
    · cases parts : splitAt separator rest with
      | nil => exact absurd parts nonempty
      | cons first others =>
        rw [parts] at ih
        simp only [splitAt, cut, if_false, parts]
        cases others with
        | nil => simpa [joinWith] using ih
        | cons second more => simpa [joinWith] using ih

end DocTable
