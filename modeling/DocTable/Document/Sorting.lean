import DocTable.FindOptions
import DocTable.Json.Order

/-!
# Sorting documents

Documents are ordered by the values at some paths, the first path being the most significant, and
sorted stably: where the values agree, the documents keep their order.
-/

namespace DocTable

/-- An order in the given direction. -/
def SortOrder.apply : SortOrder → Ordering → Ordering
  | .asc, order => order
  | .desc, order => order.swap

/-- A path to sort by and the direction. -/
abbrev SortTerm : Type := FieldPath × SortOrder

/-- Reads the paths of sort keys. -/
def sortTerms (keys : List SortKey) : Except Error (List SortTerm) :=
  keys.mapM fun key => do return (← FieldPath.parse key.field, key.order)

/-- The order of two documents under a list of sort terms; a missing value counts as null. -/
def Document.compareBy (terms : List SortTerm) (left right : Document) : Ordering :=
  match terms with
  | [] => .eq
  | (path, order) :: rest =>
    (order.apply (Json.compareOption (left.lookup? path) (right.lookup? path))).then
      (compareBy rest left right)

/-- Puts an element into a list in descending order, in front of the first element that is not
greater. -/
def insertDescending {α : Type} (compare : α → α → Ordering) (element : α) : List α → List α
  | [] => [element]
  | next :: rest =>
    if compare element next = .lt then next :: insertDescending compare element rest
    else element :: next :: rest

/-- The elements in ascending order; elements that compare equal keep their order. -/
def stableSort {α : Type} (compare : α → α → Ordering) (elements : List α) : List α :=
  (elements.foldl (fun sorted element => insertDescending compare element sorted) []).reverse

/-- Equal elements keep their order. -/
example : stableSort (fun left right => Ord.compare left.1 right.1)
    [(2, 'a'), (1, 'b'), (2, 'c'), (1, 'd')] = [(1, 'b'), (1, 'd'), (2, 'a'), (2, 'c')] := by
  decide

theorem insertDescending_perm {α : Type} (compare : α → α → Ordering) (element : α)
    (elements : List α) :
    (insertDescending compare element elements).Perm (element :: elements) := by
  induction elements with
  | nil => exact List.Perm.refl _
  | cons next rest ih =>
    simp only [insertDescending]
    split
    · exact (ih.cons next).trans (List.Perm.swap element next rest)
    · exact List.Perm.refl _

/-- Sorting neither loses nor adds an element. -/
theorem stableSort_perm {α : Type} (compare : α → α → Ordering) (elements : List α) :
    (stableSort compare elements).Perm elements := by
  have fold (sorted : List α) :
      (elements.foldl (fun sorted element => insertDescending compare element sorted) sorted).Perm
        (elements ++ sorted) := by
    induction elements generalizing sorted with
    | nil => exact List.Perm.refl _
    | cons element rest ih =>
      have inserted := (insertDescending_perm compare element sorted).append_left rest
      exact (ih _).trans (inserted.trans List.perm_middle)
  exact (List.reverse_perm _).trans (by simpa using fold [])

@[simp] theorem length_stableSort {α : Type} (compare : α → α → Ordering) (elements : List α) :
    (stableSort compare elements).length = elements.length :=
  (stableSort_perm compare elements).length_eq

end DocTable
