import DocTable.Text.Hex
import DocTable.Text.Split

/-!
# Database files

What the text that names a database stands for. It is a path, or the name of a database in memory,
or an address: a text that begins with `file:`, whose path and options may hold escapes of two
hexadecimal digits behind a percent sign.
-/

namespace DocTable

/-- Where a database is kept. -/
inductive DatabaseFile where
  /-- In memory, or in a temporary file. -/
  | temporary
  /-- In the file at a path, which is created if it is missing and may be. -/
  | file (path : String) (create : Bool)
deriving DecidableEq, Repr

namespace DatabaseFile

/-- A part of an address with its escapes replaced. Each stands for the character of its number,
but that of number zero ends the part. -/
def unescape : List Char → List Char
  | [] => []
  | '%' :: high :: low :: rest =>
    match hexNumber? [high, low] with
    | some 0 => []
    | some value => Char.ofNat value :: unescape rest
    | none => '%' :: unescape (high :: low :: rest)
  | char :: rest => char :: unescape rest

/-- The option of a part between two ampersands; one without a name is none. -/
def option? (part : List Char) : Option (List Char × List Char) :=
  let name := unescape (part.takeWhile (· != '='))
  if name = [] then none else some (name, unescape ((part.dropWhile (· != '=')).drop 1))

/-- The rights that a file is opened with: reading, writing and creating have the values one, two
and four, and memory has one that is above them all. -/
def rights? (mode : String) : Option Nat :=
  match mode with
  | "ro" => some 1
  | "rw" => some 2
  | "rwc" => some 6
  | "memory" => some 128
  | _ => none

/-- The systems of files that an address may name. -/
def systems : List String := ["unix", "unix-none", "unix-dotfile", "unix-excl", "memdb"]

/-- The rights behind one more option. An option may not ask for more rights than there are, but
always for memory; options that nothing depends on are passed over. -/
def withOption? (rights : Nat) (option : List Char × List Char) : Option Nat :=
  let value := String.ofList option.2
  match String.ofList option.1 with
  | "mode" => do
    let mode ← rights? value
    if mode = 128 ∨ mode ≤ rights then some mode else none
  | "cache" => if value = "shared" ∨ value = "private" then some rights else none
  | "vfs" => if systems.contains value then some rights else none
  | _ => some rights

/-- What an address stands for, given what follows `file:`. The host must be this one, and nothing
counts from a number sign on. -/
def ofAddress? (address : List Char) : Option DatabaseFile := do
  let text ← match address with
    | '/' :: '/' :: rest =>
      let host := rest.takeWhile (· != '/')
      if host = [] ∨ host = "localhost".toList then some (rest.drop host.length) else none
    | text => some text
  let text := text.takeWhile (· != '#')
  let path := unescape (text.takeWhile (· != '?'))
  let parts := splitAt '&' ((text.dropWhile (· != '?')).drop 1)
  let rights ← (parts.filterMap option?).foldlM withOption? 6
  return if rights = 128 ∨ path = [] ∨ path = ":memory:".toList then .temporary
    else .file (String.ofList path) (rights = 6)

/-- What the text that names a database stands for; `none` if it is malformed. -/
def ofText? (text : String) : Option DatabaseFile :=
  if text.toList.contains '\x00' then none
  else if text = "" ∨ text = ":memory:" then some .temporary
  else match text.toList with
    | 'f' :: 'i' :: 'l' :: 'e' :: ':' :: address => ofAddress? address
    | _ => some (.file text true)

example : ofText? "a%20b.db" = some (.file "a%20b.db" true) ∧
    ofText? "file:a%20b.db?mode=rw#c" = some (.file "a b.db" false) ∧
    ofText? "file://localhost/x" = some (.file "/x" true) ∧ ofText? "file://y/x" = none ∧
    ofText? "file:x?cache=shared&mode=memory" = some .temporary ∧
    ofText? "file:x?mode=ro&mode=rw" = none := by decide +kernel

end DatabaseFile

end DocTable
