import DocTable.Proofs.Document.Identity
import DocTable.Proofs.Json.Roundtrip

/-!
# Stamped documents

A document is stamped with an id if the id is its first entry and no other
entry has that name. Storing a document and reading it again keeps the stamp,
and so does every change that leaves the entry of the id alone.
-/

namespace DocTable

/-- The id stands in front, and nowhere else. -/
def Document.Stamped (document : Document) (id : String) : Prop :=
  ∃ rest, document.entries = (idField, .string id) :: rest ∧ ∀ entry ∈ rest, entry.1 ≠ idField

namespace Document.Stamped

variable {document : Document} {id : String} {key : String}

theorem id?_eq (stamped : document.Stamped id) : document.id? = some id := by
  rcases stamped with ⟨rest, entries, -⟩
  simp [Document.id?, Fields.get?, entries]

theorem withId (document : Document) (id : String) : (document.withId id).Stamped id := by
  refine ⟨(document.erase idField).entries, rfl, ?_⟩
  intro entry member
  simp only [Fields.erase, List.mem_filter, bne_iff_ne, ne_eq] at member
  exact member.2

theorem of_keepsId {after : Document} (stamped : document.Stamped id)
    (keeps : document.KeepsId after) : after.Stamped id := by
  rcases stamped with ⟨rest, entries, distinct⟩
  have front : after.entries.head? = some (idField, .string id) :=
    keeps.head?_eq (by rw [entries, List.head?_cons])
  rcases List.head?_eq_some_iff.1 front with ⟨others, own⟩
  refine ⟨others, own, ?_⟩
  have none_before : rest.filter (·.1 == idField) = [] := by simpa using distinct
  have kept := keeps.entries_eq
  rw [entries, own, List.filter_cons_of_pos (by simp), List.filter_cons_of_pos (by simp),
    none_before, List.cons.injEq] at kept
  simpa using kept.2

/-- Entries of other names are put behind the first entry. -/
theorem insert (stamped : document.Stamped id) (other : key ≠ idField) (value : Json) :
    Document.Stamped (Fields.insert document key value) id :=
  stamped.of_keepsId (.insert document other value)

theorem insertMany (stamped : document.Stamped id) {entries : List (String × Json)}
    (other : ∀ entry ∈ entries, entry.1 ≠ idField) :
    Document.Stamped (Fields.insertMany document entries) id := by
  rw [Fields.insertMany]
  induction entries generalizing document with
  | nil => exact stamped
  | cons entry rest ih =>
      apply ih
      · exact stamped.insert (other entry (by simp)) entry.2
      · intro next member
        exact other next (List.mem_cons_of_mem _ member)

end Document.Stamped

namespace Json

theorem stamped_of_settleEntries? {room : Nat} {before after : Document} {id : String}
    {entries : List (String × Json)} (stamped : before.Stamped id)
    (other : ∀ entry ∈ entries, entry.1 ≠ idField)
    (settled : settleEntries? room before entries = some after) : after.Stamped id := by
  induction entries generalizing before with
  | nil =>
      rw [settleEntries?, Option.some.injEq] at settled
      subst settled
      exact stamped
  | cons entry rest ih =>
      rcases entry with ⟨key, value⟩
      rw [settleEntries?] at settled
      cases first : settle? room value with
      | none => simp [first] at settled
      | some value =>
          simp only [first, Option.bind_eq_bind, Option.bind_some] at settled
          have distinct : key ≠ idField := other _ List.mem_cons_self
          apply ih (stamped.insert distinct value) _ settled
          intro next member
          exact other next (List.mem_cons_of_mem _ member)

end Json

/-- What is read from the text of a stamped document has the stamp. -/
theorem Document.Stamped.of_decode_text {document read : Document} {id : String}
    (stamped : document.Stamped id) (decoded : Document.decode document.text = .ok read) :
    read.Stamped id := by
  rcases stamped with ⟨rest, entries, distinct⟩
  rw [Document.decode_eq_ok_iff, Document.text, Json.read?_text] at decoded
  have unfolded : Json.renumbered? (.object document) =
      (Json.renumberedEntries? rest).map fun others =>
        .object ⟨(idField, .string id) :: others⟩ := by
    rcases document with ⟨list⟩
    simp only at entries
    subst entries
    rw [Json.renumbered?, Json.renumberedEntries?, Json.renumbered?]
    cases Json.renumberedEntries? rest <;> rfl
  rw [unfolded] at decoded
  cases renumbered : Json.renumberedEntries? rest with
  | none => simp [renumbered] at decoded
  | some others =>
      have keys := Json.keys_of_renumberedEntries? renumbered
      have start : Document.Stamped (Fields.insert ∅ idField (.string id)) id :=
        ⟨[], rfl, by simp⟩
      have otherKeys (entry : String × Json) (member : entry ∈ others) : entry.1 ≠ idField := by
        have inKeys : entry.1 ∈ rest.map (·.1) := by
          rw [← keys]
          exact List.mem_map_of_mem member
        rcases List.mem_map.1 inKeys with ⟨own, inRest, same⟩
        rw [← same]
        exact distinct own inRest
      have settled : Json.settle? Json.depthLimit (.object ⟨(idField, .string id) :: others⟩) =
          (Json.settleEntries? (Json.depthLimit - 1) (Fields.insert ∅ idField (.string id))
            others).map .object := by
        rw [Json.settle?, if_neg (by decide), Json.settleEntries?, Json.settle?]
        rfl
      rw [renumbered, Option.map_some, Option.bind_some, settled] at decoded
      cases fields : Json.settleEntries? (Json.depthLimit - 1)
          (Fields.insert ∅ idField (.string id)) others with
      | none => simp [fields] at decoded
      | some own =>
          simp only [fields, Option.map_some, Option.some.injEq, Json.object.injEq] at decoded
          subst decoded
          exact Json.stamped_of_settleEntries? start otherKeys fields

/-- A change that leaves every stamp in place. -/
def KeepsStamp (change : Document → Document × Bool) : Prop :=
  ∀ {document : Document} {id : String}, document.Stamped id → (change document).1.Stamped id

theorem Update.ofDocument_ensures (update : Document) :
    Ensures (fun update => KeepsStamp update.apply) (ofDocument update) := by
  constructor
  intro own read document id stamped
  exact stamped.of_keepsId (((ofDocument_sparesId update).of_ok own read).keepsId_apply document)

theorem Document.keepsStamp_replaceWith {replacement : Document}
    (plain : replacement.contains idField = false) : KeepsStamp replacement.replaceWith := by
  intro document id stamped
  have found : document.get? idField = some (.string id) := by
    rcases stamped with ⟨rest, entries, -⟩
    simp [Fields.get?, entries]
  have start : Document.Stamped ⟨[(idField, .string id)]⟩ id := ⟨[], rfl, by simp⟩
  rw [Document.replaceWith, found]
  exact start.insertMany fun _ => Document.ne_idField plain

end DocTable
