import Mathlib.Data.List.Forall2
import DocTable.Json.Reader

/-!
# Proper values

A value is proper if none of its objects repeats a name. Such a value is the
same as itself, and it is the same as another one as soon as their entries agree
one by one. Whatever is read from a text is proper, because each step of the
reader puts a name in place of its earlier occurrence.
-/

namespace DocTable

namespace Fields

variable {α : Type} {fields : Fields α} {entries : List (String × α)}

theorem get?_eq_some_of_mem (distinct : fields.Distinct) {key : String} {value : α}
    (member : (key, value) ∈ fields.entries) : fields.get? key = some value := by
  rcases fields with ⟨entries⟩
  induction entries with
  | nil => cases member
  | cons entry rest ih =>
      rcases entry with ⟨name, first⟩
      rcases List.nodup_cons.1 distinct with ⟨fresh, distinct⟩
      rcases List.mem_cons.1 member with same | inRest
      · cases same
        simp [get?]
      · have other : key ≠ name := by
          rintro rfl
          exact fresh (List.mem_map.2 ⟨(key, value), inRest, rfl⟩)
        have later : rest.lookup key = some value := ih distinct inRest
        have skipped : (key == name) = false := by simpa using other
        rw [get?, List.lookup_cons, skipped]
        exact later

theorem mem_of_get? {key : String} {value : α} (found : fields.get? key = some value) :
    (key, value) ∈ fields.entries := by
  rcases List.lookup_eq_some_iff.1 found with ⟨before, after, entries, -⟩
  rw [entries]
  simp

/-- The entries are the names in order with what is found under them. -/
theorem entries_eq_filterMap (distinct : fields.Distinct) :
    fields.entries = fields.keys.filterMap fun key => (fields.get? key).map (key, ·) := by
  have each : fields.entries.filterMap (fun entry => (fields.get? entry.1).map (entry.1, ·)) =
      fields.entries.filterMap some := by
    apply List.filterMap_congr
    intro entry member
    rw [get?_eq_some_of_mem distinct member, Option.map_some]
  rw [keys, List.filterMap_map]
  exact ((List.filterMap_some).symm.trans each.symm)

/-- Maps are equal if they have the same names in the same order and the same values. -/
theorem eq_of_get? {other : Fields α} (distinct : fields.Distinct)
    (distinctOther : other.Distinct) (keys : fields.keys = other.keys)
    (values : ∀ key, fields.get? key = other.get? key) : fields = other := by
  have entries : fields.entries = other.entries := by
    rw [entries_eq_filterMap distinct, entries_eq_filterMap distinctOther, keys]
    exact congrArg (List.filterMap · _) (funext fun key => by rw [values])
  rcases fields with ⟨_⟩
  rcases other with ⟨_⟩
  cases entries
  rfl

theorem get?_eq_none_iff {key : String} : fields.get? key = none ↔ key ∉ fields.keys := by
  rw [get?, List.lookup_eq_none_iff, keys, List.mem_map]
  constructor
  · rintro others ⟨entry, member, rfl⟩
    simpa using others entry member
  · intro absent entry member
    rw [bne_iff_ne]
    rintro rfl
    exact absent ⟨entry, member, rfl⟩

/-- A name that is put in keeps its place, or comes last if it was not there. -/
theorem keys_insert (fields : Fields α) (key : String) (value : α) :
    (fields.insert key value).keys =
      if key ∈ fields.keys then fields.keys else fields.keys ++ [key] := by
  rcases fields with ⟨entries⟩
  simp only [keys, insert]
  induction entries with
  | nil => rfl
  | cons entry rest ih =>
      rcases entry with ⟨name, old⟩
      by_cases same : name = key
      · simp [insertEntry, same]
      · rw [insertEntry, if_neg same, List.map_cons, ih]
        by_cases later : key ∈ rest.map (·.1) <;> simp [later, Ne.symm same]

theorem insert_of_notMem {key : String} {value : α} (fresh : key ∉ fields.keys) :
    fields.insert key value = ⟨fields.entries ++ [(key, value)]⟩ := by
  rcases fields with ⟨entries⟩
  rw [insert, mk.injEq]
  induction entries with
  | nil => rfl
  | cons entry rest ih =>
      rcases entry with ⟨name, old⟩
      rw [keys, List.map_cons, List.mem_cons, not_or] at fresh
      rw [insertEntry, if_neg (Ne.symm fresh.1), ih fresh.2, List.cons_append]

theorem insert_of_get? {key : String} {value : α} (found : fields.get? key = some value) :
    fields.insert key value = fields := by
  rcases fields with ⟨entries⟩
  simp only [get?, insert, Fields.mk.injEq] at found ⊢
  induction entries with
  | nil => cases found
  | cons entry rest ih =>
      rcases entry with ⟨name, first⟩
      by_cases hit : name = key
      · subst hit
        simp only [List.lookup_cons_self, Option.some.injEq] at found
        subst found
        rw [insertEntry, if_pos rfl]
      · have skipped : (key == name) = false := by simpa using Ne.symm hit
        rw [List.lookup_cons, skipped] at found
        rw [insertEntry, if_neg hit, ih found]

theorem insertMany_of_notMem (fresh : ∀ entry ∈ entries, entry.1 ∉ fields.keys)
    (distinct : (Fields.mk entries).Distinct) :
    fields.insertMany entries = ⟨fields.entries ++ entries⟩ := by
  rw [insertMany]
  induction entries generalizing fields with
  | nil => simp
  | cons entry rest ih =>
      rcases List.forall_mem_cons.1 fresh with ⟨first, later⟩
      rcases List.nodup_cons.1 distinct with ⟨other, distinct⟩
      have put : fields.insert entry.1 entry.2 = ⟨fields.entries ++ [entry]⟩ :=
        insert_of_notMem first
      have fresh : ∀ next ∈ rest, next.1 ∉ Fields.keys ⟨fields.entries ++ [entry]⟩ := by
        intro next member isKey
        rw [keys, List.map_append, List.mem_append] at isKey
        rcases isKey with isKey | isKey
        · exact later next member isKey
        · exact other (List.mem_singleton.1 isKey ▸ List.mem_map_of_mem member)
      calc
        _ = rest.foldl (fun fields entry => fields.insert entry.1 entry.2)
              (fields.insert entry.1 entry.2) := rfl
        _ = _ := by rw [put, ih fresh distinct, List.append_assoc, List.singleton_append]

theorem Distinct.insert (distinct : fields.Distinct) (key : String) (value : α) :
    (fields.insert key value).Distinct := by
  rw [Distinct, keys_insert]
  split
  · exact distinct
  · next fresh =>
      apply List.nodup_append.2
      refine ⟨distinct, by simp, ?_⟩
      rintro name member other isKey rfl
      rw [List.mem_singleton] at isKey
      exact fresh (isKey ▸ member)

theorem Distinct.erase (distinct : fields.Distinct) (key : String) :
    (fields.erase key).Distinct :=
  distinct.sublist (List.filter_sublist.map _)

end Fields

namespace Json

mutual

/-- No object in the value repeats a name. -/
def Proper : Json → Prop
  | .array elements => ProperElements elements
  | .object ⟨entries⟩ => (Fields.mk entries).Distinct ∧ ProperEntries entries
  | .null | .bool _ | .number _ | .string _ => True

/-- No object in the elements repeats a name. -/
def ProperElements : List Json → Prop
  | [] => True
  | element :: rest => Proper element ∧ ProperElements rest

/-- No object in the values of the entries repeats a name. -/
def ProperEntries : List (String × Json) → Prop
  | [] => True
  | (_, value) :: rest => Proper value ∧ ProperEntries rest

end

theorem properElements_iff {elements : List Json} :
    ProperElements elements ↔ ∀ element ∈ elements, element.Proper := by
  induction elements with
  | nil => simp [ProperElements]
  | cons element rest ih => rw [ProperElements, ih, List.forall_mem_cons]

theorem properEntries_iff {entries : List (String × Json)} :
    ProperEntries entries ↔ ∀ entry ∈ entries, entry.2.Proper := by
  induction entries with
  | nil => simp [ProperEntries]
  | cons entry rest ih =>
      rcases entry with ⟨key, value⟩
      rw [ProperEntries, ih, List.forall_mem_cons]

theorem proper_object_iff {fields : Fields Json} :
    (Json.object fields).Proper ↔ fields.Distinct ∧ ∀ entry ∈ fields.entries, entry.2.Proper := by
  rcases fields with ⟨entries⟩
  rw [Proper, properEntries_iff]

theorem Proper.get? {fields : Fields Json} {key : String} {value : Json}
    (proper : (Json.object fields).Proper) (found : fields.get? key = some value) :
    value.Proper :=
  (proper_object_iff.1 proper).2 _ (Fields.mem_of_get? found)

mutual

theorem same_self (value : Json) (proper : value.Proper) : same value value = true := by
  match value with
  | .null => rfl
  | .bool _ | .string _ => simp [same]
  | .number own => exact own.same_self
  | .array elements =>
      rw [Proper] at proper
      rw [same]
      exact sameElements_self elements proper
  | .object ⟨entries⟩ =>
      rw [Proper] at proper
      rw [same, Fields.size, sameEntries_self entries ⟨entries⟩ proper.2]
      · simp
      · intro entry member
        exact Fields.get?_eq_some_of_mem proper.1 member

theorem sameElements_self (elements : List Json) (proper : ProperElements elements) :
    sameElements elements elements = true := by
  match elements with
  | [] => rfl
  | element :: rest =>
      rw [ProperElements] at proper
      rw [sameElements, same_self element proper.1, sameElements_self rest proper.2]
      rfl

/-- Entries are the same as those of a map in which each of them is found. -/
theorem sameEntries_self (entries : List (String × Json)) (fields : Fields Json)
    (proper : ProperEntries entries)
    (found : ∀ entry ∈ entries, fields.get? entry.1 = some entry.2) :
    sameEntries entries fields = true := by
  match entries with
  | [] => rfl
  | (key, value) :: rest =>
      rw [ProperEntries] at proper
      rcases List.forall_mem_cons.1 found with ⟨first, later⟩
      rw [sameEntries, first, sameEntries_self rest fields proper.2 later]
      simp [same_self value proper.1]

end

/-- Entries with the same names and values. -/
def Alike (left right : String × Json) : Prop := left.1 = right.1 ∧ same left.2 right.2 = true

theorem same_of_alike {left right : Fields Json} (distinct : right.Distinct)
    (alike : List.Forall₂ Alike left.entries right.entries) :
    same (.object left) (.object right) = true := by
  have entries {ours theirs : List (String × Json)} (alike : List.Forall₂ Alike ours theirs)
      (found : ∀ entry ∈ theirs, right.get? entry.1 = some entry.2) :
      sameEntries ours right = true := by
    induction alike with
    | nil => rfl
    | @cons one other ours theirs head rest ih =>
        rcases one with ⟨key, value⟩
        rcases other with ⟨name, counterpart⟩
        rcases head with ⟨rfl, agree⟩
        rcases List.forall_mem_cons.1 found with ⟨first, later⟩
        rw [sameEntries, first, ih later]
        simp [agree]
  have members : ∀ entry ∈ right.entries, right.get? entry.1 = some entry.2 :=
    fun entry member => Fields.get?_eq_some_of_mem distinct member
  rcases left with ⟨ours⟩
  rw [same, entries alike members, Fields.size, alike.length_eq]
  simp

/-- Putting a proper value into a proper map leaves the map proper. -/
theorem Proper.insert {fields : Fields Json} (proper : (Json.object fields).Proper) (key : String)
    {value : Json} (own : value.Proper) : (Json.object (fields.insert key value)).Proper := by
  rw [proper_object_iff] at proper ⊢
  refine ⟨proper.1.insert key value, ?_⟩
  intro entry member
  rcases Fields.mem_insertEntry member with rfl | member
  · exact own
  · exact proper.2 entry member

theorem proper_empty : (Json.object ∅).Proper := proper_object_iff.2 ⟨List.nodup_nil, nofun⟩

theorem Proper.fieldsOrEmpty {value : Json} (proper : value.Proper) :
    (Json.object value.fieldsOrEmpty).Proper := by
  cases value with
  | object fields => exact proper
  | _ => exact proper_empty

theorem Proper.eraseField {fields : Fields Json} (proper : (Json.object fields).Proper)
    (key : String) : (Json.object (fields.erase key)).Proper := by
  rw [proper_object_iff] at proper ⊢
  refine ⟨proper.1.erase key, ?_⟩
  intro entry member
  exact proper.2 entry (List.filter_sublist.subset member)

theorem Proper.insertMany {fields : Fields Json} (proper : (Json.object fields).Proper)
    {entries : List (String × Json)} (each : ∀ entry ∈ entries, entry.2.Proper) :
    (Json.object (fields.insertMany entries)).Proper := by
  rw [Fields.insertMany]
  induction entries generalizing fields with
  | nil => exact proper
  | cons entry rest ih =>
      rcases List.forall_mem_cons.1 each with ⟨first, later⟩
      exact ih (proper.insert entry.1 first) later

/-! ## Reading -/

/-- What has been read of an open container is proper. -/
def Frame.Proper : Frame → Prop
  | .element before => ∀ element ∈ before, element.Proper
  | .member before _ => (Json.object before).Proper

namespace Reader

/-- Whatever has been read so far is proper. -/
def Proper : Reader → Prop
  | .expectValue stack | .expectElement stack | .expectFirstKey stack =>
      ∀ frame ∈ stack, frame.Proper
  | .expectKey before stack | .expectColon before _ stack =>
      (Json.object before).Proper ∧ ∀ frame ∈ stack, frame.Proper
  | .complete value stack => value.Proper ∧ ∀ frame ∈ stack, frame.Proper

variable {limit : Nat} {stack : List Frame} {token : Token} {reader next : Reader}

theorem proper_begin? (proper : ∀ frame ∈ stack, frame.Proper)
    (begun : begin? limit stack token = some next) : next.Proper := by
  cases token with
  | null | bool _ | number _ | string _ =>
      cases begun
      exact ⟨trivial, proper⟩
  | openArray | openObject =>
      rw [begin?] at begun
      split at begun
      · cases begun
        exact proper
      · cases begun
  | _ => cases begun

theorem step?_expectElement (opens : token ≠ .closeArray) :
    (expectElement stack).step? limit token = begin? limit (.element [] :: stack) token := by
  cases token with
  | closeArray => contradiction
  | _ => rfl

theorem proper_step? (proper : reader.Proper) (step : reader.step? limit token = some next) :
    next.Proper := by
  cases reader with
  | expectValue stack => exact proper_begin? proper step
  | expectElement stack =>
      have inside : ∀ frame ∈ Frame.element [] :: stack, frame.Proper :=
        List.forall_mem_cons.2 ⟨nofun, proper⟩
      by_cases closes : token = .closeArray
      · subst closes
        cases step
        exact ⟨trivial, proper⟩
      · rw [step?_expectElement closes] at step
        exact proper_begin? inside step
  | expectFirstKey stack =>
      cases token with
      | closeObject | string _ =>
          cases step
          exact ⟨proper_empty, proper⟩
      | _ => cases step
  | expectKey before stack =>
      cases token with
      | string key =>
          cases step
          exact proper
      | _ => cases step
  | expectColon before key stack =>
      cases token with
      | colon =>
          cases step
          exact List.forall_mem_cons.2 proper
      | _ => cases step
  | complete value stack =>
      rcases proper with ⟨own, around⟩
      cases stack with
      | nil => cases step
      | cons frame stack =>
          rcases List.forall_mem_cons.1 around with ⟨first, outer⟩
          cases frame with
          | element before =>
              have elements : ∀ element ∈ value :: before, element.Proper :=
                List.forall_mem_cons.2 ⟨own, first⟩
              cases token with
              | comma =>
                  cases step
                  exact List.forall_mem_cons.2 ⟨elements, outer⟩
              | closeArray =>
                  cases step
                  refine ⟨properElements_iff.2 ?_, outer⟩
                  exact fun element member => elements element (List.mem_reverse.1 member)
              | _ => cases step
          | member before key =>
              have entries := Json.Proper.insert first key own
              cases token with
              | comma | closeObject =>
                  cases step
                  exact ⟨entries, outer⟩
              | _ => cases step

theorem proper_foldlM {tokens : List Token} (proper : reader.Proper)
    (read : tokens.foldlM (step? limit) reader = some next) : next.Proper := by
  induction tokens generalizing reader with
  | nil =>
      cases read
      exact proper
  | cons token rest ih =>
      rw [List.foldlM_cons] at read
      rcases Option.bind_eq_some_iff.1 read with ⟨middle, step, later⟩
      exact ih (proper_step? proper step) later

end Reader

theorem proper_of_read? {text : String} {value : Json} (read : read? text = some value) :
    value.Proper := by
  rw [read?, readWithin?] at read
  rcases Option.bind_eq_some_iff.1 read with ⟨tokens, -, read⟩
  rcases Option.bind_eq_some_iff.1 read with ⟨reader, run, result⟩
  have start : (Reader.expectValue []).Proper := nofun
  have proper := Reader.proper_foldlM start run
  cases reader with
  | complete own stack =>
      cases stack with
      | nil =>
          cases result
          exact proper.1
      | cons frame stack => cases result
  | _ => cases result

end Json

end DocTable
