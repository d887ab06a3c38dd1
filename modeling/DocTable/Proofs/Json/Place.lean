import DocTable.Proofs.Json.Reordering

/-!
# Changes at a place

At a place stands a value or nothing. A change at the end of a path replaces what
stands there: a value that is left creates the objects on the way, and where nothing
is left, its name is taken out of an object that has it. Writing and removing the
value at a path are the two constant changes. What stands at other paths is not
touched, and changes at paths that do not lead to or into one another commute, up to
the order of keys.
-/

namespace DocTable

namespace Fields

variable {α : Type} {fields : Fields α} {key : String}

theorem erase_of_get?_eq_none (absent : fields.get? key = none) : fields.erase key = fields := by
  rcases fields with ⟨entries⟩
  rw [get?_eq_none_iff, keys, List.mem_map] at absent
  rw [erase, mk.injEq, List.filter_eq_self]
  intro entry member
  rw [bne_iff_ne]
  rintro rfl
  exact absent ⟨entry, member, rfl⟩

theorem insert_insert_self (fields : Fields α) (key : String) (first second : α) :
    (fields.insert key first).insert key second = fields.insert key second := by
  rcases fields with ⟨entries⟩
  simp only [insert, mk.injEq]
  induction entries with
  | nil => simp [insertEntry]
  | cons entry rest ih =>
      rcases entry with ⟨name, old⟩
      by_cases same : name = key
      · simp [insertEntry, same]
      · simp [insertEntry, same, ih]

/-- The map with the given names, as far as there is a value for them. -/
def collect (names : List String) (value : String → Option α) : Fields α :=
  ⟨names.filterMap fun name => (value name).map (name, ·)⟩

theorem get?_collect (names : List String) (value : String → Option α) (key : String) :
    (collect names value).get? key = if key ∈ names then value key else none := by
  rw [get?, collect]
  induction names with
  | nil => rfl
  | cons name rest ih =>
      by_cases same : key = name
      · subst same
        cases found : value key with
        | none => simp [found, ih]
        | some inner => simp [found]
      · have skipped : (key == name) = false := by simpa using same
        cases found : value name <;> simp [found, same, skipped, List.lookup_cons, ih]

theorem distinct_collect {names : List String} (distinct : names.Nodup)
    (value : String → Option α) : (collect names value).Distinct := by
  have keys : (collect names value).keys = names.filter fun name => (value name).isSome := by
    rw [Fields.keys, collect]
    induction names with
    | nil => rfl
    | cons name rest ih =>
        cases found : value name <;> simp [found, ih (List.nodup_cons.1 distinct).2]
  rw [Distinct, keys]
  exact distinct.filter _

end Fields

namespace Json

/-- The fields of what stands at a place; what is no object has none. -/
def fieldsAt (place : Option Json) : Fields Json := (place.getD .null).fieldsOrEmpty

/-- What stands at the end of a path that begins at a place. -/
def follow? (place : Option Json) (path : List String) : Option Json := place.bind (lookup? path)

/-- The place with a value put under a name, or with the name taken out. -/
def putField (place : Option Json) (key : String) : Option Json → Option Json
  | some value => some (.object ((fieldsAt place).insert key value))
  | none => place.map (erase [key])

/-- The place with a change made at the end of a path. -/
def alter (change : Option Json → Option Json) : List String → Option Json → Option Json
  | [], place => change place
  | key :: rest, place => putField place key (alter change rest ((fieldsAt place).get? key))

variable {place other inner : Option Json} {key name : String} {path rest : List String}
variable {change counterpart : Option Json → Option Json}

@[simp] theorem fieldsAt_object (fields : Fields Json) :
    fieldsAt (some (.object fields)) = fields := rfl

@[simp] theorem putField_some (place : Option Json) (key : String) (value : Json) :
    putField place key (some value) = some (.object ((fieldsAt place).insert key value)) := rfl

@[simp] theorem putField_object_none (fields : Fields Json) (key : String) :
    putField (some (.object fields)) key none = some (.object (fields.erase key)) := rfl

theorem fieldsAt_putField_none (place : Option Json) (key : String) :
    fieldsAt (putField place key none) = (fieldsAt place).erase key := by
  match place with
  | none | some .null | some (.bool _) | some (.number _) | some (.string _) | some (.array _) |
    some (.object _) => rfl

@[simp] theorem get?_putField_self (place : Option Json) (key : String) (inner : Option Json) :
    (fieldsAt (putField place key inner)).get? key = inner := by
  cases inner with
  | none => rw [fieldsAt_putField_none, Fields.get?_erase_self]
  | some value => rw [putField_some, fieldsAt_object, Fields.get?_insert_self]

theorem get?_putField_of_ne (place : Option Json) (inner : Option Json) (different : name ≠ key) :
    (fieldsAt (putField place key inner)).get? name = (fieldsAt place).get? name := by
  cases inner with
  | none => rw [fieldsAt_putField_none, Fields.get?_erase_of_ne _ different]
  | some value => rw [putField_some, fieldsAt_object, Fields.get?_insert_of_ne _ value different]

theorem putField_of_get? (found : (fieldsAt place).get? key = inner) :
    putField place key inner = place := by
  match place with
  | none | some .null | some (.bool _) | some (.number _) | some (.string _) | some (.array _) =>
      cases found
      rfl
  | some (.object fields) =>
      rw [fieldsAt_object] at found
      cases inner with
      | none => rw [putField_object_none, Fields.erase_of_get?_eq_none found]
      | some value => rw [putField_some, fieldsAt_object, Fields.insert_of_get? found]

theorem putField_eq_none (nothing : putField place key inner = none) : place = none := by
  cases inner with
  | none => exact Option.map_eq_none_iff.1 nothing
  | some value => cases nothing

theorem putField_eq_or_object (place : Option Json) (key : String) (inner : Option Json) :
    putField place key inner = place ∨
      ∃ fields, putField place key inner = some (.object fields) := by
  match inner, place with
  | some _, _ | none, some (.object _) => exact .inr ⟨_, rfl⟩
  | none, none | none, some .null | none, some (.bool _) | none, some (.number _) |
    none, some (.string _) | none, some (.array _) => exact .inl rfl

theorem exists_object_putField
    (object : (∃ fields, place = some (.object fields)) ∨ ∃ value, inner = some value) :
    ∃ fields, putField place key inner = some (.object fields) := by
  cases inner with
  | some value => exact ⟨_, rfl⟩
  | none =>
      rcases object with ⟨fields, rfl⟩ | ⟨value, impossible⟩
      · exact ⟨_, rfl⟩
      · cases impossible

theorem distinct_putField (distinct : (fieldsAt place).Distinct) :
    (fieldsAt (putField place key inner)).Distinct := by
  cases inner with
  | none =>
      rw [fieldsAt_putField_none]
      exact distinct.erase key
  | some value => exact distinct.insert key value

@[simp] theorem follow?_nil (place : Option Json) : follow? place [] = place := by
  cases place <;> rfl

@[simp] theorem follow?_none (path : List String) : follow? none path = none := rfl

theorem follow?_cons (place : Option Json) (key : String) (rest : List String) :
    follow? place (key :: rest) = follow? ((fieldsAt place).get? key) rest := by
  match place with
  | none | some .null | some (.bool _) | some (.number _) | some (.string _) | some (.array _) |
    some (.object _) => rfl

theorem follow?_append (place : Option Json) (path rest : List String) :
    follow? place (path ++ rest) = follow? (follow? place path) rest := by
  induction path generalizing place with
  | nil => rw [List.nil_append, follow?_nil]
  | cons key path ih => rw [List.cons_append, follow?_cons, follow?_cons, ih]

theorem exists_object_of_follow? {value : Json} (nonempty : path ≠ [])
    (found : follow? place path = some value) : ∃ fields, place = some (.object fields) := by
  cases path with
  | nil => contradiction
  | cons key rest =>
      match place with
      | some (.object fields) => exact ⟨fields, rfl⟩
      | none | some .null | some (.bool _) | some (.number _) | some (.string _) |
        some (.array _) => cases found

theorem follow?_alter_append (change : Option Json → Option Json) (path rest : List String)
    (place : Option Json) :
    follow? (alter change (path ++ rest) place) path = alter change rest (follow? place path) := by
  induction path generalizing place with
  | nil => rw [List.nil_append, follow?_nil, follow?_nil]
  | cons key path ih =>
      rw [List.cons_append, alter, follow?_cons, get?_putField_self, ih, follow?_cons]

@[simp] theorem alter_nil (change : Option Json → Option Json) (place : Option Json) :
    alter change [] place = change place := rfl

theorem follow?_alter_self (change : Option Json → Option Json) (path : List String)
    (place : Option Json) :
    follow? (alter change path place) path = change (follow? place path) := by
  simpa using follow?_alter_append change path [] place

/-- Nothing else is touched, unless one of the paths leads to or into the other. -/
theorem follow?_alter_of_not_prefix {path other : List String} (outside : ¬path <+: other)
    (apart : ¬other <+: path) (change : Option Json → Option Json) (place : Option Json) :
    follow? (alter change path place) other = follow? place other := by
  induction path generalizing other place with
  | nil => exact absurd List.nil_prefix outside
  | cons key path ih =>
      cases other with
      | nil => exact absurd List.nil_prefix apart
      | cons name other =>
          rw [alter, follow?_cons, follow?_cons]
          by_cases same : name = key
          · subst same
            rw [List.prefix_cons_inj] at outside apart
            rw [get?_putField_self, ih outside apart]
          · rw [get?_putField_of_ne _ _ same]

/-- A change that leaves what stands there leaves the place as it is. -/
theorem alter_of_eq (kept : change (follow? place path) = follow? place path) :
    alter change path place = place := by
  induction path generalizing place with
  | nil => simpa using kept
  | cons key path ih =>
      rw [follow?_cons] at kept
      rw [alter, ih kept, putField_of_get? rfl]

theorem alter_congr (agree : change (follow? place path) = counterpart (follow? place path)) :
    alter change path place = alter counterpart path place := by
  induction path generalizing place with
  | nil => simpa using agree
  | cons key path ih =>
      rw [follow?_cons] at agree
      rw [alter, alter, ih agree]

theorem alter_eq_none (nonempty : path ≠ []) (nothing : alter change path place = none) :
    place = none := by
  cases path with
  | nil => contradiction
  | cons key rest => exact putField_eq_none nothing

/-! ## Writing and removing -/

theorem alter_eq_write (value : Json) (path : List String) (place : Option Json) :
    alter (fun _ => some value) path place = some (write value path (place.getD (.object ∅))) := by
  induction path generalizing place with
  | nil => rfl
  | cons key rest ih =>
      have fields : fieldsAt place = (place.getD (.object ∅)).fieldsOrEmpty := by
        cases place <;> rfl
      rw [alter, ih, putField_some, write, fields]

theorem alter_eq_erase (key : String) (rest : List String) (value : Json) :
    alter (fun _ => none) (key :: rest) (some value) = some (erase (key :: rest) value) := by
  induction rest generalizing key value with
  | nil => rfl
  | cons next rest ih =>
      match value with
      | .object fields =>
          rw [alter, fieldsAt_object, erase]
          cases found : fields.get? key with
          | none =>
              rw [alter_of_eq (by simp), putField_object_none, Fields.erase_of_get?_eq_none found]
          | some inner => rw [ih, putField_some, fieldsAt_object]
      | .null | .bool _ | .number _ | .string _ | .array _ =>
          rw [alter_of_eq (by rfl)]
          rfl

theorem alter_alter_some (first second : Json) (path : List String) (place : Option Json) :
    alter (fun _ => some second) path (alter (fun _ => some first) path place) =
      alter (fun _ => some second) path place := by
  induction path generalizing place with
  | nil => rfl
  | cons key rest ih =>
      rw [alter, alter, get?_putField_self, ih, alter, alter_eq_write, alter_eq_write,
        putField_some, putField_some, putField_some, fieldsAt_object, Fields.insert_insert_self]

theorem alter_none_none (path : List String) : alter (fun _ => none) path none = none :=
  alter_of_eq (follow?_none path).symm

theorem isSome_alter_none (nonempty : path ≠ []) (place : Option Json) :
    (alter (fun _ => none) path place).isSome = place.isSome := by
  cases place with
  | none => rw [alter_none_none]
  | some value =>
      cases left : alter (fun _ => none) path (some value) with
      | none => cases alter_eq_none nonempty left
      | some _ => rfl

/-- What stands at the place is proper. -/
def ProperAt (place : Option Json) : Prop := ∀ value, place = some value → value.Proper

theorem properAt_none : ProperAt none := nofun

theorem properAt_some {value : Json} : ProperAt (some value) ↔ value.Proper :=
  ⟨fun proper => proper value rfl, fun proper _ same => Option.some.inj same ▸ proper⟩

namespace ProperAt

variable (proper : ProperAt place)

include proper

theorem fieldsAt : (Json.object (fieldsAt place)).Proper := by
  cases place with
  | none => exact proper_empty
  | some value => exact (proper value rfl).fieldsOrEmpty

theorem get? (key : String) : ProperAt ((Json.fieldsAt place).get? key) :=
  fun _ found => proper.fieldsAt.get? found

theorem follow? (path : List String) : ProperAt (follow? place path) := by
  induction path generalizing place with
  | nil => simpa using proper
  | cons key rest ih =>
      rw [follow?_cons]
      exact ih (proper.get? key)

theorem putField (own : ProperAt inner) (key : String) : ProperAt (putField place key inner) := by
  cases inner with
  | some value => exact properAt_some.2 (proper.fieldsAt.insert key (own value rfl))
  | none =>
      match place with
      | none => exact properAt_none
      | some (.object fields) => exact properAt_some.2 ((properAt_some.1 proper).eraseField key)
      | some .null | some (.bool _) | some (.number _) | some (.string _) | some (.array _) =>
          exact proper

theorem alter (path : List String) (own : ProperAt (change (Json.follow? place path))) :
    ProperAt (alter change path place) := by
  induction path generalizing place with
  | nil => simpa using own
  | cons key rest ih =>
      rw [follow?_cons] at own
      exact proper.putField (ih (proper.get? key) own) key

end ProperAt

theorem Proper.write {new value : Json} (own : new.Proper) (path : List String)
    (proper : value.Proper) : (write new path value).Proper := by
  rw [← properAt_some, ← Option.getD_some (a := value) (b := .object ∅), ← alter_eq_write]
  exact (properAt_some.2 proper).alter path (properAt_some.2 own)

theorem Proper.erase {value : Json} (path : List String) (proper : value.Proper) :
    (erase path value).Proper := by
  cases path with
  | nil => exact proper
  | cons key rest =>
      rw [← properAt_some, ← alter_eq_erase]
      exact (properAt_some.2 proper).alter _ properAt_none

/-! ## The order of keys -/

section Reordered

variable {alike : Number → Number → Prop}

theorem rel_follow? (places : Option.Rel (Reordered alike) place other) (path : List String) :
    Option.Rel (Reordered alike) (follow? place path) (follow? other path) := by
  cases places with
  | none => exact .none
  | some reordered => exact reordered.lookup? path

theorem rel_get? (places : Option.Rel (Reordered alike) place other) (key : String) :
    Option.Rel (Reordered alike) ((fieldsAt place).get? key) ((fieldsAt other).get? key) := by
  simpa [follow?_cons] using rel_follow? places [key]

/-- Objects at two places are reordered if each name leads to reorderings. -/
theorem rel_of_get? (object : ∃ fields, place = some (.object fields))
    (objectOther : ∃ fields, other = some (.object fields)) (distinct : (fieldsAt place).Distinct)
    (distinctOther : (fieldsAt other).Distinct)
    (agree : ∀ key, Option.Rel (Reordered alike) ((fieldsAt place).get? key)
      ((fieldsAt other).get? key)) : Option.Rel (Reordered alike) place other := by
  rcases object with ⟨fields, rfl⟩
  rcases objectOther with ⟨others, rfl⟩
  exact .some ((reordered_object_iff distinct distinctOther).2 agree)

theorem rel_putField {counterInner : Option Json} (proper : ProperAt place)
    (properOther : ProperAt other) (places : Option.Rel (Reordered alike) place other)
    (inners : Option.Rel (Reordered alike) inner counterInner) (key : String) :
    Option.Rel (Reordered alike) (putField place key inner) (putField other key counterInner) := by
  have distinct := (proper_object_iff.1 proper.fieldsAt).1
  have distinctOther := (proper_object_iff.1 properOther.fieldsAt).1
  have agree (name : String) : Option.Rel (Reordered alike)
      ((fieldsAt (putField place key inner)).get? name)
      ((fieldsAt (putField other key counterInner)).get? name) := by
    by_cases same : name = key
    · rw [same, get?_putField_self, get?_putField_self]
      exact inners
    · rw [get?_putField_of_ne _ _ same, get?_putField_of_ne _ _ same]
      exact rel_get? places name
  cases inners with
  | some _ =>
      exact rel_of_get? ⟨_, rfl⟩ ⟨_, rfl⟩ (distinct.insert _ _) (distinctOther.insert _ _) agree
  | none =>
      cases places with
      | none => exact .none
      | @some left right reordered =>
          have shape := reordered.shape
          cases left with
          | object fields =>
              rcases fields with ⟨entries⟩
              rcases shape with ⟨others, rfl, -⟩
              exact rel_of_get? ⟨_, rfl⟩ ⟨_, rfl⟩ (distinct.erase key) (distinctOther.erase key)
                agree
          | null | bool _ | string _ =>
              cases shape
              exact .some reordered
          | number _ | array _ =>
              rcases shape with ⟨_, rfl, -⟩
              exact .some reordered

/-- Changes that leave reorderings of what they find leave reorderings of places. -/
theorem rel_alter (proper : ProperAt place) (properOther : ProperAt other)
    (places : Option.Rel (Reordered alike) place other) (path : List String)
    (changes : Option.Rel (Reordered alike) (change (follow? place path))
      (counterpart (follow? other path))) :
    Option.Rel (Reordered alike) (alter change path place) (alter counterpart path other) := by
  induction path generalizing place other with
  | nil => simpa using changes
  | cons key rest ih =>
      rw [follow?_cons, follow?_cons] at changes
      exact rel_putField proper properOther places
        (ih (proper.get? key) (properOther.get? key) (rel_get? places key) changes) key

theorem rel_refl (reflexive : ∀ number, alike number number) (place : Option Json) :
    Option.Rel (Reordered alike) place place := by
  cases place with
  | none => exact .none
  | some value => exact .some (.refl reflexive value)

/-- Of two values put under one name the last remains, unless it is taken out after
the object has been created for the first. -/
theorem putField_putField_self {first second : Option Json}
    (absent : first = none → (fieldsAt place).get? key = none)
    (stays : second = none → first = none) :
    putField (putField place key first) key second = putField place key second := by
  cases first with
  | none => rw [putField_of_get? (absent rfl)]
  | some value =>
      cases second with
      | none => cases stays rfl
      | some other => simp [Fields.insert_insert_self]

/-- What is put under different names may be put there in any order. -/
theorem rel_putField_comm (reflexive : ∀ number, alike number number)
    (distinct : (fieldsAt place).Distinct) (different : name ≠ key)
    (first second : Option Json) :
    Option.Rel (Reordered alike) (putField (putField place name first) key second)
      (putField (putField place key second) name first) := by
  have agree (own : String) :
      (fieldsAt (putField (putField place name first) key second)).get? own =
        (fieldsAt (putField (putField place key second) name first)).get? own := by
    by_cases isName : own = name
    · subst isName
      rw [get?_putField_of_ne _ _ different, get?_putField_self, get?_putField_self]
    · by_cases isKey : own = key
      · subst isKey
        rw [get?_putField_self, get?_putField_of_ne _ _ isName, get?_putField_self]
      · rw [get?_putField_of_ne _ _ isKey, get?_putField_of_ne _ _ isName,
          get?_putField_of_ne _ _ isName, get?_putField_of_ne _ _ isKey]
  have objects (one : ∃ fields, putField (putField place name first) key second =
        some (.object fields))
      (other : ∃ fields, putField (putField place key second) name first =
        some (.object fields)) :
      Option.Rel (Reordered alike) (putField (putField place name first) key second)
        (putField (putField place key second) name first) :=
    rel_of_get? one other (distinct_putField (distinct_putField distinct))
      (distinct_putField (distinct_putField distinct)) fun own => agree own ▸ rel_refl reflexive _
  match first, second, place with
  | some _, _, _ => exact objects (exists_object_putField (.inl ⟨_, rfl⟩)) ⟨_, rfl⟩
  | none, some _, _ => exact objects ⟨_, rfl⟩ (exists_object_putField (.inl ⟨_, rfl⟩))
  | none, none, some (.object _) => exact objects ⟨_, rfl⟩ ⟨_, rfl⟩
  | none, none, none | none, none, some .null | none, none, some (.bool _) |
    none, none, some (.number _) | none, none, some (.string _) | none, none, some (.array _) =>
      exact rel_refl reflexive _

/-- Changes at paths that do not lead to or into one another commute. -/
theorem rel_alter_comm (reflexive : ∀ number, alike number number) (proper : ProperAt place)
    {path other : List String} (outside : ¬path <+: other) (apart : ¬other <+: path)
    (change counterpart : Option Json → Option Json) :
    Option.Rel (Reordered alike) (alter change path (alter counterpart other place))
      (alter counterpart other (alter change path place)) := by
  induction path generalizing other place with
  | nil => exact absurd List.nil_prefix outside
  | cons key path ih =>
      cases other with
      | nil => exact absurd List.nil_prefix apart
      | cons name other =>
          by_cases same : name = key
          · subst same
            rw [List.prefix_cons_inj] at outside apart
            have nonempty : path ≠ [] := fun empty => outside (empty ▸ List.nil_prefix)
            have nonemptyOther : other ≠ [] := fun empty => apart (empty ▸ List.nil_prefix)
            have proper_inner := proper.get? name
            rw [alter, alter, alter, alter, get?_putField_self, get?_putField_self,
              putField_putField_self (alter_eq_none nonemptyOther) (alter_eq_none nonempty),
              putField_putField_self (alter_eq_none nonempty) (alter_eq_none nonemptyOther)]
            exact rel_putField proper proper (rel_refl reflexive place)
              (ih proper_inner outside apart) name
          · rw [alter, alter, alter, alter, get?_putField_of_ne _ _ (Ne.symm same),
              get?_putField_of_ne _ _ same]
            exact rel_putField_comm reflexive (proper_object_iff.1 proper.fieldsAt).1 same _ _

end Reordered

end Json

end DocTable
