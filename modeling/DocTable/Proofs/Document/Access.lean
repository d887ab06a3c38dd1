import DocTable.Proofs.Update.Idempotence

/-!
# Putting and removing at a path

What has been put at a path is found there with all that is in it, and what has been removed is
gone with all that was in it. Other paths lead to what they led to before, as long as they do not
lead to the place or into it, and on the way there no object loses or moves a name that it does not
have to. The flags tell whether there has been a change.
-/

namespace DocTable

open Json

namespace Document

/-- Puts a value at the end of a path on the way there: where no object stands, an empty one is
put first, and in the last object the value is compared with what stands under the last name. -/
def setAlong (value : Json) : List String → Document → Document × Bool
  | [], document => (document, false)
  | [key], document =>
      (document.insert key value, !sameOption (document.get? key) (some value))
  | key :: next :: rest, document =>
      let opened : Document := match document.get? key with
        | some (.object _) => document
        | _ => document.insert key (.object ∅)
      match opened.get? key with
      | some (.object inner) =>
          let (inner, changed) := setAlong value (next :: rest) inner
          (opened.insert key (.object inner), changed)
      | _ => (opened, false)

/-- Removes the end of a path on the way there, which ends where no object stands. The flag tells
whether the last object has had the last name. -/
def unsetAlong : List String → Document → Document × Bool
  | [], document => (document, false)
  | [key], document => (document.erase key, (document.get? key).isSome)
  | key :: next :: rest, document =>
      match document.get? key with
      | some (.object inner) =>
          let (inner, removed) := unsetAlong (next :: rest) inner
          (document.insert key (.object inner), removed)
      | _ => (document, false)

/-- The laws of putting a value at a path. -/
structure SetLaws (document : Document) (path : FieldPath) (value : Json) : Prop where
  /-- At the path and behind it stands what is in the value. -/
  inside : ∀ (longer : FieldPath) (rest : List String), longer.segments = path.segments ++ rest →
    (document.set path value).1.lookup? longer = value.lookup? rest
  /-- Paths that do not lead to or into one another do not matter to one another. -/
  elsewhere : ∀ other : FieldPath, ¬path.segments <+: other.segments →
    ¬other.segments <+: path.segments →
      (document.set path value).1.lookup? other = document.lookup? other
  /-- A change is reported unless an equal value has been there. -/
  reports : (document.set path value).2 = true ↔
    ¬∃ old, document.lookup? path = some old ∧ same old value = true
  /-- Without a report, the document is equal to what it was. -/
  silent : (document.set path value).2 = false →
    same (.object (document.set path value).1) (.object document) = true
  /-- Of two values the last one remains, and the second time no change is reported. -/
  again : (∀ next, ((document.set path value).1.set path next).1 = (document.set path next).1) ∧
    ((document.set path value).1.set path value).2 = false
  /-- An object that does not stand at the path or behind it keeps its names in their order. -/
  order : ∀ (place : List String) (fields : Fields Json), ¬path.segments <+: place →
    (Json.object document).lookup? place = some (.object fields) →
      ∃ now : Fields Json,
        (Json.object (document.set path value).1).lookup? place = some (.object now) ∧
          fields.keys.Sublist now.keys
  /-- The document and the report are those of the walk to the end of the path. -/
  along : document.set path value = document.setAlong value path.segments

/-- The laws of removing what is at a path. -/
structure UnsetLaws (document : Document) (path : FieldPath) : Prop where
  /-- A removal is reported if there is something to remove. -/
  reports : (document.unset path).2 = true ↔ ∃ old, document.lookup? path = some old
  /-- At the path and behind it stands nothing. -/
  inside : ∀ longer : FieldPath, path.segments <+: longer.segments →
    (document.unset path).1.lookup? longer = none
  /-- Nothing else is missed. -/
  present : ∀ other : FieldPath, ¬path.segments <+: other.segments →
    ((document.unset path).1.lookup? other).isSome = (document.lookup? other).isSome
  /-- Paths that do not lead to or into one another do not matter to one another. -/
  elsewhere : ∀ other : FieldPath, ¬path.segments <+: other.segments →
    ¬other.segments <+: path.segments →
      (document.unset path).1.lookup? other = document.lookup? other
  /-- Without a report, the document is what it was. -/
  silent : (document.unset path).2 = false → (document.unset path).1 = document
  /-- An object that does not stand at the path or behind it keeps the order of the names that are
  left. -/
  order : ∀ (place : List String) (fields : Fields Json), ¬path.segments <+: place →
    (Json.object document).lookup? place = some (.object fields) →
      ∃ now : Fields Json,
        (Json.object (document.unset path).1).lookup? place = some (.object now) ∧
          now.keys.Sublist fields.keys
  /-- The document and the report are those of the walk to the end of the path. -/
  along : document.unset path = document.unsetAlong path.segments

variable {document : Document} {path : FieldPath} {value : Json}

theorem lookup?_of_performs {change : Document → Document × Bool} {edit : Edit}
    (performs : Update.Performs change edit) (document : Document) (place : List String) :
    (Json.object (change document).1).lookup? place =
      follow? (alter edit.action.result edit.path (some (.object document))) place := by
  rw [← Edit.apply, ← (performs document).1]
  rfl

theorem lookup?_elsewhere {change : Document → Document × Bool} {edit : Edit}
    (performs : Update.Performs change edit) (document : Document) {place : List String}
    (outside : ¬edit.path <+: place) (apart : ¬place <+: edit.path) :
    (Json.object (change document).1).lookup? place = (Json.object document).lookup? place := by
  rw [lookup?_of_performs performs]
  exact follow?_alter_of_not_prefix outside apart _ _

/-- An edit keeps an object that does not stand at its path or behind it. -/
theorem exists_object_of_performs {change : Document → Document × Bool} {edit : Edit}
    (performs : Update.Performs change edit) (document : Document) {place : List String}
    {fields : Fields Json} (outside : ¬edit.path <+: place)
    (found : (Json.object document).lookup? place = some (.object fields)) :
    ∃ now : Fields Json, (Json.object (change document).1).lookup? place = some (.object now) ∧
      (now = fields ∨ ∃ key rest, edit.path = place ++ key :: rest ∧
        Edit.apply ⟨key :: rest, edit.action⟩ (some (.object fields)) = some (.object now)) := by
  by_cases leads : place <+: edit.path
  · obtain ⟨rest, whole⟩ := leads
    cases rest with
    | nil => exact absurd (by simp [← whole]) outside
    | cons key rest =>
        have behind : (Edit.mk (key :: rest) edit.action).path ≠ [] := List.cons_ne_nil key rest
        obtain ⟨now, applied, -⟩ := Edit.exists_apply_object (absurd · behind) fields
        refine ⟨now, ?_, .inr ⟨key, rest, whole.symm, applied⟩⟩
        have stands : follow? (some (.object document)) place = some (.object fields) := found
        rw [lookup?_of_performs performs, ← whole, follow?_alter_append, stands]
        exact applied
  · refine ⟨fields, ?_, .inl rfl⟩
    rw [lookup?_elsewhere performs document outside leads, found]

/-- The walk puts the value where it belongs, and finds there what stood there before it began. -/
theorem setAlong_eq (value : Json) {segments : List String} (nonempty : segments ≠ [])
    (document : Document) :
    document.setAlong value segments =
      ((write value segments (.object document)).fieldsOrEmpty,
        !sameOption ((Json.object document).lookup? segments) (some value)) := by
  induction segments generalizing document with
  | nil => contradiction
  | cons key rest ih =>
      cases rest with
      | nil =>
          rw [setAlong, lookup?_cons_object]
          cases document.get? key <;> rfl
      | cons next rest =>
          have walked := ih (List.cons_ne_nil next rest)
          have written : write value (key :: next :: rest) (.object document) =
            .object (document.insert key
              (write value (next :: rest) ((document.get? key).getD (.object ∅)))) := rfl
          rw [setAlong, lookup?_cons_object, written]
          cases found : document.get? key with
          | none =>
              simp only [Fields.get?_insert_self, walked, Fields.insert_insert_self]
              rfl
          | some old =>
              cases old with
              | object inner =>
                  simp only [found, walked]
                  rfl
              | null | bool _ | number _ | string _ | array _ =>
                  simp only [Fields.get?_insert_self, walked, Fields.insert_insert_self]
                  rfl

theorem set_eq_setAlong (document : Document) (path : FieldPath) (value : Json) :
    document.set path value = document.setAlong value path.segments :=
  (setAlong_eq value path.segments_ne_nil document).symm

theorem lookup?_set_append (document : Document) (path : FieldPath) (value : Json)
    (rest : List String) :
    (Json.object (document.set path value).1).lookup? (path.segments ++ rest) =
      value.lookup? rest := by
  rw [lookup?_of_performs (Update.performs_set path value), follow?_append, follow?_alter_self]
  rfl

theorem set_reports_iff : (document.set path value).2 = true ↔
    ¬∃ old, document.lookup? path = some old ∧ same old value = true := by
  rw [set]
  cases document.lookup? path <;> simp [sameOption]

theorem set_set (document : Document) (path : FieldPath) (value next : Json) :
    ((document.set path value).1.set path next).1 = (document.set path next).1 := by
  have first := (Update.performs_set path value document).1
  have both := (Update.performs_set path next (document.set path value).1).1
  rw [first] at both
  have last := (Update.performs_set path next document).1
  have same := both.trans ((alter_alter_some value next path.segments _).trans last.symm)
  exact Json.object.inj (Option.some.inj same)

theorem set_again_silent (own : value.Proper) :
    ((document.set path value).1.set path value).2 = false := by
  have found := lookup?_set_append document path value []
  rw [List.append_nil, lookup?_nil] at found
  rw [← Bool.not_eq_true, set_reports_iff, not_not]
  exact ⟨value, found, same_self value own⟩

/-- A value that is put in place of an equal one leaves an equal document. -/
theorem same_set_of_silent (proper : (Json.object document).Proper) (own : value.Proper)
    (unreported : (document.set path value).2 = false) :
    same (.object (document.set path value).1) (.object document) = true := by
  have performs := Update.performs_set path value document
  have assigned : (Edit.mk path.segments (.assign value)).action.Proper := own
  have unchanged := Edit.rel_apply_of_changes assigned (properAt_some.2 proper)
    (performs.2.symm.trans unreported)
  rw [← performs.1] at unchanged
  cases unchanged with
  | some reordered => exact (same_iff_reordered _ _ (proper_put proper path own)).2 reordered

/-- Putting a value adds a name to an object on the way, if anything. -/
theorem exists_object_set {place : List String} {fields : Fields Json}
    (outside : ¬path.segments <+: place)
    (found : (Json.object document).lookup? place = some (.object fields)) :
    ∃ now : Fields Json,
      (Json.object (document.set path value).1).lookup? place = some (.object now) ∧
        fields.keys.Sublist now.keys := by
  obtain ⟨now, stands, rfl | ⟨key, rest, -, applied⟩⟩ :=
    exists_object_of_performs (Update.performs_set path value) document outside found
  · exact ⟨now, stands, .refl _⟩
  · exact ⟨now, stands, Edit.sublist_keys_of_assign rfl (List.cons_ne_nil key rest) applied⟩

theorem erase_object (segments : List String) (fields : Fields Json) :
    erase segments (.object fields) = .object (erase segments (.object fields)).fieldsOrEmpty := by
  match segments with
  | [] | [_] => rfl
  | _ :: _ :: _ =>
      rw [erase]
      split <;> rfl

/-- The walk removes what stands at the path, and reports it if there is anything. -/
theorem unsetAlong_eq {segments : List String} (nonempty : segments ≠ []) (document : Document) :
    document.unsetAlong segments =
      ((erase segments (.object document)).fieldsOrEmpty,
        ((Json.object document).lookup? segments).isSome) := by
  induction segments generalizing document with
  | nil => contradiction
  | cons key rest ih =>
      cases rest with
      | nil =>
          rw [unsetAlong, lookup?_cons_object]
          cases document.get? key <;> rfl
      | cons next rest =>
          rw [unsetAlong, lookup?_cons_object, erase]
          cases found : document.get? key with
          | none => rfl
          | some old =>
              cases old with
              | object inner =>
                  simp only [ih (List.cons_ne_nil next rest), ← erase_object]
                  rfl
              | null | bool _ | number _ | string _ | array _ =>
                  simp only [erase, Fields.insert_of_get? found]
                  rfl

theorem unset_eq_unsetAlong (document : Document) (path : FieldPath) :
    document.unset path = document.unsetAlong path.segments :=
  (unsetAlong_eq path.segments_ne_nil document).symm

theorem unset_reports_iff : (document.unset path).2 = true ↔
    ∃ old, document.lookup? path = some old := by
  rw [unset, Option.isSome_iff_exists]

theorem lookup?_unset_append (document : Document) (path : FieldPath) (rest : List String) :
    (Json.object (document.unset path).1).lookup? (path.segments ++ rest) = none := by
  rw [lookup?_of_performs (Update.performs_unset path), follow?_append, follow?_alter_self]
  rfl

/-- Nothing is missed that does not stand at the path or behind it. -/
theorem isSome_lookup?_unset {place : List String} (outside : ¬path.segments <+: place) :
    ((Json.object (document.unset path).1).lookup? place).isSome =
      ((Json.object document).lookup? place).isSome := by
  by_cases leads : place <+: path.segments
  · obtain ⟨rest, whole⟩ := leads
    have nonempty : rest ≠ [] := by
      rintro rfl
      exact outside (by simp [← whole])
    rw [lookup?_of_performs (Update.performs_unset path), ← whole, follow?_alter_append]
    exact isSome_alter_none nonempty _
  · rw [lookup?_elsewhere (Update.performs_unset path) document outside leads]

theorem unset_of_silent (unreported : (document.unset path).2 = false) :
    (document.unset path).1 = document := by
  have missing : follow? (some (.object document)) path.segments = none := by
    rw [unset, Option.isSome_eq_false_iff, Option.isNone_iff_eq_none] at unreported
    exact unreported
  have kept := (Update.performs_unset path document).1.trans (alter_of_eq missing.symm)
  exact Json.object.inj (Option.some.inj kept)

/-- Removing takes a name out of an object on the way, if anything. -/
theorem exists_object_unset {place : List String} {fields : Fields Json}
    (outside : ¬path.segments <+: place)
    (found : (Json.object document).lookup? place = some (.object fields)) :
    ∃ now : Fields Json,
      (Json.object (document.unset path).1).lookup? place = some (.object now) ∧
        now.keys.Sublist fields.keys := by
  obtain ⟨now, stands, rfl | ⟨key, rest, -, applied⟩⟩ :=
    exists_object_of_performs (Update.performs_unset path) document outside found
  · exact ⟨now, stands, .refl _⟩
  · exact ⟨now, stands, Edit.sublist_keys_of_remove rfl (List.cons_ne_nil key rest) applied⟩

/-- Access along paths is lawful, whatever the document, the path and the value are. -/
theorem access_lawful (document : Document) (path : FieldPath) (value : Json)
    (proper : (Json.object document).Proper) (own : value.Proper) :
    SetLaws document path value ∧ UnsetLaws document path := by
  constructor
  · constructor
    case inside =>
      intro longer rest whole
      rw [lookup?, whole, lookup?_set_append]
    case elsewhere => exact fun _ => lookup?_elsewhere (Update.performs_set path value) document
    case reports => exact set_reports_iff
    case silent => exact same_set_of_silent proper own
    case again => exact ⟨set_set document path value, set_again_silent own⟩
    case order => exact fun _ _ => exists_object_set
    case along => exact set_eq_setAlong document path value
  · constructor
    case reports => exact unset_reports_iff
    case inside =>
      rintro longer ⟨rest, whole⟩
      rw [lookup?, ← whole, lookup?_unset_append]
    case present => exact fun _ => isSome_lookup?_unset
    case elsewhere => exact fun _ => lookup?_elsewhere (Update.performs_unset path) document
    case silent => exact unset_of_silent
    case order => exact fun _ _ => exists_object_unset
    case along => exact unset_eq_unsetAlong document path

/-- The path leads through a text: putting a value makes an object of it and is reported, and
removing changes nothing. -/
theorem access_lawful_of_text :
    let document : Document :=
      ⟨[("a", .object ⟨[("b", .string "x"), ("c", .null)]⟩), ("d", .bool true)]⟩
    let path : FieldPath := ⟨["a", "b", "e"], by decide, by decide⟩
    (Json.object document).Proper ∧ (Json.bool false).Proper ∧
      SetLaws document path (.bool false) ∧ UnsetLaws document path ∧
      (document.set path (.bool false)).2 = true ∧ (document.unset path).1 = document := by
  intro document path
  have proper : (Json.object document).Proper := by
    simp [document, Json.Proper, ProperEntries, Fields.Distinct, Fields.keys]
  obtain ⟨puts, removes⟩ := access_lawful document path (.bool false) proper trivial
  refine ⟨proper, trivial, puts, removes, puts.reports.2 ?_, removes.silent rfl⟩
  rintro ⟨old, found, -⟩
  cases found

end Document

end DocTable
