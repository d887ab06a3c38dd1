import DocTable.Error
import DocTable.Text.Split

/-!
# Directories

The files below the current directory, by their paths: what reading one yields, and whether one
could be created. Reading follows a path name by name; creating first removes what the path enters
and leaves again.
-/

namespace DocTable

/-- The files below the current directory with their paths and contents. -/
structure Directory where
  files : List (String × String)
deriving DecidableEq, Repr

namespace Directory

/-- The names along a path without empty ones and dots; two dots go back. It is `none` for a path
that leaves the directory. -/
def steps? (path : String) : Option (List String) :=
  if path.toList.head? = some '/' then none
  else (splitAt '/' path.toList).foldlM (fun (before : List String) (part : List Char) =>
    if part = [] ∨ part = ['.'] then some before
    else if part = ['.', '.'] then if before = [] then none else some before.dropLast
    else some (before ++ [String.ofList part])) []

/-- The files with the names along their paths. -/
def entries (directory : Directory) : List (List String × String) :=
  directory.files.filterMap fun (path, content) => (steps? path).map fun steps => (steps, content)

/-- Whether the names lead to the directory itself or to one above some file. -/
def isDirectory (directory : Directory) (steps : List String) : Bool :=
  steps.isEmpty || directory.entries.any fun (file, _) =>
    steps.length < file.length && steps.isPrefixOf file

/-- The content of the file behind the names, where the rest of a path leads. -/
def follow (directory : Directory) (before : List String) :
    List (List Char) → Except FileFault String
  | [] => match directory.entries.lookup before with
    | some content => pure content
    | none => throw (if directory.isDirectory before then .isDirectory else .missing)
  | part :: rest =>
    if !directory.isDirectory before then
      throw (if (directory.entries.lookup before).isSome then .notDirectory else .missing)
    else if part = [] ∨ part = ['.'] then directory.follow before rest
    else if part = ['.', '.'] then
      if before = [] then throw .missing else directory.follow before.dropLast rest
    else directory.follow (before ++ [String.ofList part]) rest

/-- The content of the file at a path. Nothing is known of files outside the directory. -/
def read (directory : Directory) (path : String) : Except FileFault String :=
  if path.isEmpty ∨ path.toList.head? = some '/' then throw .missing
  else directory.follow [] (splitAt '/' path.toList)

/-- Whether there is a file at a path, or one may and could be created there. -/
def canOpen (directory : Directory) (create : Bool) (path : String) : Bool :=
  match steps? path with
  | none => false
  | some steps => (directory.entries.lookup steps).isSome ||
      (create && !directory.isDirectory steps && directory.isDirectory steps.dropLast)

end Directory

/-- A path may go back, but only out of a directory that is there. -/
example :
    let directory : Directory := ⟨[("a/b", "text")]⟩
    (directory.read "a/../a/./b").toOption = some "text" ∧
      (directory.read "c/../a/b").toOption = none ∧ (directory.read "a/b/c").toOption = none := by
  decide +kernel

end DocTable
