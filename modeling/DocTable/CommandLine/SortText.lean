import DocTable.FindOptions
import DocTable.Text.Blank
import DocTable.Text.Split

/-!
# Lists in arguments

Sort keys and projected fields are given as lists with commas. Blanks around the parts and empty
parts do not count. A sign in front of a sort key tells its direction: a minus sign descending, a
plus sign or none ascending.
-/

namespace DocTable.CommandLine

/-- The parts of a list that are not empty, without the blanks around them. -/
def listParts (text : String) : List (List Char) :=
  ((splitAt ',' text.toList).map trimBlanks).filter (· ≠ [])

/-- The sort key of a part. -/
def sortKeyOfPart : List Char → SortKey
  | '-' :: field => ⟨String.ofList field, .desc⟩
  | '+' :: field => ⟨String.ofList field, .asc⟩
  | field => ⟨String.ofList field, .asc⟩

/-- The sort keys of a list. -/
def sortKeysOfText (text : String) : List SortKey := (listParts text).map sortKeyOfPart

/-- The names of a list. -/
def namesOfText (text : String) : List String := (listParts text).map String.ofList

example : sortKeysOfText "-age, +name,city," =
    [⟨"age", .desc⟩, ⟨"name", .asc⟩, ⟨"city", .asc⟩] := by decide +kernel

end DocTable.CommandLine
