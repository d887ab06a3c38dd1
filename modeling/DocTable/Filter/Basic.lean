import DocTable.Filter.Parser

/-!
# Filters

A filter chooses documents: either a match document, which engines with JSON functions evaluate
themselves, or an arbitrary test, which is always evaluated in process.
-/

namespace DocTable

/-- A choice of documents. -/
inductive Filter where
  /-- The documents that a match document describes. -/
  | declarative (filter : Document)
  /-- The documents that pass a test. -/
  | predicate (test : Document → Bool)

namespace Filter

/-- The filter that every document passes. -/
def all : Filter := .declarative ∅

instance : Inhabited Filter := ⟨all⟩

/-- The filter of a value, which must be an object. -/
def ofJson : Json → Except Error Filter
  | .object fields => pure (.declarative fields)
  | other => throw (FilterError.notObject other : Error)

/-- The filter of a text, which must be the text of an object. -/
def parse (text : String) : Except Error Filter :=
  match Json.read? text with
  | some value => ofJson value
  | none => throw (FilterError.malformedText : Error)

end Filter

/-- A test of decoded rows, for filters that the engine does not evaluate. -/
inductive RowTest where
  /-- The condition of a match document. -/
  | condition (test : Condition)
  /-- A test given as a function. -/
  | function (test : Document → Bool)

/-- Whether a document passes a test. -/
def RowTest.accepts : RowTest → Document → Bool
  | .condition test, document => test.holds document
  | .function test, document => test document

end DocTable
