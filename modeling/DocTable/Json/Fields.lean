/-!
# Ordered fields

`Fields` is a map from names to values that remembers the order in which the names arrived. It is
seen through the list of its entries. Every operation keeps the names of a map distinct; a list of
entries that repeats a name is read as its first occurrence.
-/

namespace DocTable

/-- A map from names to values in order of first arrival. -/
structure Fields (α : Type) where
  /-- The entries in order. -/
  entries : List (String × α)
deriving Repr

namespace Fields

variable {α : Type}

/-- The map without entries. -/
def empty : Fields α := ⟨[]⟩

instance : EmptyCollection (Fields α) := ⟨empty⟩

/-- The names in order. -/
def keys (fields : Fields α) : List String := fields.entries.map (·.1)

/-- The number of entries. -/
def size (fields : Fields α) : Nat := fields.entries.length

/-- Whether there is no entry. -/
def isEmpty (fields : Fields α) : Bool := fields.entries.isEmpty

/-- The value under a name. -/
def get? (fields : Fields α) (key : String) : Option α := fields.entries.lookup key

/-- Whether there is a value under a name. -/
def contains (fields : Fields α) (key : String) : Bool := (fields.get? key).isSome

/-- Entries with a value put under a name: in place if the name is there, else at the end. -/
def insertEntry (key : String) (value : α) : List (String × α) → List (String × α)
  | [] => [(key, value)]
  | (name, old) :: rest =>
    if name = key then (key, value) :: rest else (name, old) :: insertEntry key value rest

/-- Puts a value under a name: in place if the name is there, else at the end. -/
def insert (fields : Fields α) (key : String) (value : α) : Fields α :=
  ⟨insertEntry key value fields.entries⟩

/-- Removes a name; the other entries keep their order. -/
def erase (fields : Fields α) (key : String) : Fields α :=
  ⟨fields.entries.filter (·.1 != key)⟩

/-- Puts entries into the map one after the other. -/
def insertMany (fields : Fields α) (entries : List (String × α)) : Fields α :=
  entries.foldl (fun fields (key, value) => fields.insert key value) fields

/-- The map with the given entries; a repeated name keeps its place and takes the last value. -/
def ofList (entries : List (String × α)) : Fields α := empty.insertMany entries

/-- Whether no name occurs twice. -/
def Distinct (fields : Fields α) : Prop := fields.keys.Nodup

@[simp] theorem get?_empty (key : String) : (empty : Fields α).get? key = none := rfl

@[simp] theorem get?_insert_self (fields : Fields α) (key : String) (value : α) :
    (fields.insert key value).get? key = some value := by
  obtain ⟨entries⟩ := fields
  simp only [get?, insert]
  induction entries with
  | nil => simp [insertEntry]
  | cons entry rest ih =>
    obtain ⟨name, old⟩ := entry
    by_cases same : name = key
    · simp [insertEntry, same]
    · have other : (key == name) = false := by simpa using Ne.symm same
      simp [insertEntry, same, List.lookup_cons, other, ih]

theorem get?_insert_of_ne (fields : Fields α) {key other : String} (value : α)
    (different : other ≠ key) : (fields.insert key value).get? other = fields.get? other := by
  obtain ⟨entries⟩ := fields
  simp only [get?, insert]
  induction entries with
  | nil =>
    have differs : (other == key) = false := by simpa using different
    simp [insertEntry, List.lookup_cons, differs]
  | cons entry rest ih =>
    obtain ⟨name, old⟩ := entry
    by_cases same : name = key
    · subst same
      have differs : (other == name) = false := by simpa using different
      simp [insertEntry, List.lookup_cons, differs]
    · simp [insertEntry, same, List.lookup_cons, ih]

theorem mem_insertEntry {key : String} {value : α} {entry : String × α}
    {entries : List (String × α)} (member : entry ∈ insertEntry key value entries) :
    entry = (key, value) ∨ entry ∈ entries := by
  induction entries with
  | nil => exact .inl (List.mem_singleton.1 member)
  | cons first rest ih =>
    rw [insertEntry] at member
    split at member
    · rcases List.mem_cons.1 member with same | member
      · exact .inl same
      · exact .inr (List.mem_cons_of_mem _ member)
    · rcases List.mem_cons.1 member with rfl | member
      · exact .inr List.mem_cons_self
      · rcases ih member with same | member
        · exact .inl same
        · exact .inr (List.mem_cons_of_mem _ member)

@[simp] theorem get?_erase_self (fields : Fields α) (key : String) :
    (fields.erase key).get? key = none := by
  obtain ⟨entries⟩ := fields
  simp only [get?, erase]
  induction entries with
  | nil => rfl
  | cons entry rest ih =>
    obtain ⟨name, old⟩ := entry
    by_cases same : name = key
    · simp [same, ih]
    · have other : (key == name) = false := by simpa using Ne.symm same
      simp [same, List.lookup_cons, other, ih]

theorem get?_erase_of_ne (fields : Fields α) {key other : String} (different : other ≠ key) :
    (fields.erase key).get? other = fields.get? other := by
  obtain ⟨entries⟩ := fields
  simp only [get?, erase]
  induction entries with
  | nil => rfl
  | cons entry rest ih =>
    obtain ⟨name, old⟩ := entry
    by_cases same : name = key
    · subst same
      have differs : (other == name) = false := by simpa using different
      simp [List.lookup_cons, differs, ih]
    · simp [same, List.lookup_cons, ih]

end Fields

end DocTable
