import DocTable.Proofs.Collection.Request
import DocTable.Proofs.Json.Number
import DocTable.Proofs.Json.Proper

/-!
# Patches

An update that puts plain values over the top level is sent as a patch, and the
engine merges it by itself. A plain value neither removes a field nor reaches
into one, so the merge puts the same fields in the same places as the update,
which only leaves out a value that is there already. No other update is sent in
this way, and no row that is not addressed by its id.
-/

namespace DocTable

open Json

variable {α β σ ι : Type}

namespace Update

theorem mergePatch_plain {value : Json} (plain : patch?.isPlain value = true) (target : Json) :
    mergePatch target value = value := by
  cases value with
  | bool _ | number _ | string _ => rfl
  | null | array _ | object _ => cases plain

theorem mergeEntries_plain {entries : List (String × Json)}
    (plain : ∀ entry ∈ entries, patch?.isPlain entry.2 = true) (fields : Fields Json) :
    mergeEntries fields entries = fields.insertMany entries := by
  induction entries generalizing fields with
  | nil => rfl
  | cons entry rest ih =>
      rcases entry with ⟨key, value⟩
      rcases List.forall_mem_cons.1 plain with ⟨first, later⟩
      have step : mergeEntries fields ((key, value) :: rest) =
          mergeEntries (fields.insert key (mergePatch ((fields.get? key).getD .null) value))
            rest := by
        cases value with
        | null => cases first
        | _ => rfl
      rw [step, mergePatch_plain first, ih later]
      rfl

theorem same_plain {value other : Json} (plain : patch?.isPlain value = true)
    (agree : same other value = true) : same value other = true := by
  cases value with
  | null | array _ | object _ => cases plain
  | bool own =>
      cases other with
      | bool other =>
          simp only [same, beq_iff_eq] at agree ⊢
          exact agree.symm
      | _ => simp [same] at agree
  | string own =>
      cases other with
      | string other =>
          simp only [same, beq_iff_eq] at agree ⊢
          exact agree.symm
      | _ => simp [same] at agree
  | number own =>
      cases other with
      | number other =>
          rw [same] at agree ⊢
          exact Number.same_symm agree
      | _ => simp [same] at agree

end Update

namespace Fields

variable {left right : Fields Json} {key : String} {value other : Json}

theorem alike_insert (alike : List.Forall₂ Alike left.entries right.entries)
    (agree : same value other = true) :
    List.Forall₂ Alike (left.insert key value).entries (right.insert key other).entries := by
  rcases left with ⟨ours⟩
  rcases right with ⟨theirs⟩
  simp only [insert] at alike ⊢
  induction alike with
  | nil => exact .cons ⟨rfl, agree⟩ .nil
  | @cons one counterpart ours theirs head rest ih =>
      rcases one with ⟨name, first⟩
      rcases counterpart with ⟨_, second⟩
      rcases head with ⟨rfl, first_agree⟩
      by_cases hit : name = key
      · rw [insertEntry, insertEntry, if_pos hit, if_pos hit]
        exact .cons ⟨rfl, agree⟩ rest
      · rw [insertEntry, insertEntry, if_neg hit, if_neg hit]
        exact .cons ⟨rfl, first_agree⟩ ih

end Fields

namespace Document

variable {left right : Document} {key : String} {value : Json}

theorem mergeField_cases (document : Document) (field : key ≠ idField) (value : Json) :
    (document.mergeField (key, value)).1 = document.insert key value ∨
      ∃ other, document.get? key = some other ∧ same other value = true ∧
        (document.mergeField (key, value)).1 = document := by
  rw [mergeField]
  simp only [field, if_false]
  split
  · next agree =>
      right
      cases found : document.get? key with
      | none =>
          rw [found] at agree
          cases agree
      | some other =>
          rw [found] at agree
          exact ⟨other, rfl, agree, rfl⟩
  · exact .inl rfl

theorem alike_mergeField (alike : List.Forall₂ Alike left.entries right.entries)
    (field : key ≠ idField) (plain : Update.patch?.isPlain value = true) :
    List.Forall₂ Alike (left.insert key value).entries
      (right.mergeField (key, value)).1.entries := by
  have own : same value value = true := by
    cases value with
    | null | array _ | object _ => cases plain
    | bool _ | number _ | string _ => exact same_self _ trivial
  rcases right.mergeField_cases field value with put | ⟨other, found, agree, kept⟩
  · rw [put]
    exact Fields.alike_insert alike own
  · rw [kept, ← Fields.insert_of_get? found]
    exact Fields.alike_insert alike (Update.same_plain plain agree)

theorem distinct_mergeField (distinct : right.Distinct) (field : key ≠ idField) (value : Json) :
    (right.mergeField (key, value)).1.Distinct := by
  rcases right.mergeField_cases field value with put | ⟨other, -, -, kept⟩
  · rw [put]
    exact distinct.insert key value
  · rw [kept]
    exact distinct

/-- Field by field, the merge and the update stay alike. -/
theorem alike_applyEach {entries : List (String × Json)}
    (fields : ∀ entry ∈ entries, entry.1 ≠ idField ∧ Update.patch?.isPlain entry.2 = true)
    (alike : List.Forall₂ Alike left.entries right.entries) (distinct : right.Distinct) :
    List.Forall₂ Alike (left.insertMany entries).entries
        (applyEach mergeField right entries).1.entries ∧
      (applyEach mergeField right entries).1.Distinct := by
  induction entries generalizing left right with
  | nil => exact ⟨alike, distinct⟩
  | cons entry rest ih =>
      rcases entry with ⟨key, value⟩
      rcases List.forall_mem_cons.1 fields with ⟨⟨field, plain⟩, later⟩
      exact ih later (alike_mergeField alike field plain) (distinct_mergeField distinct field value)

end Document

/-- The document with the text of a patch merged over it by an engine. Two of
them follow the rules of merge patches, and one writes the fields of an object
over the top level. What an engine reads in the text of a value is a parameter. -/
def Sql.JsonDialect.merged (engine : Sql.JsonDialect) (read : String → Option Json)
    (document : Document) (patch : String) : Option Json :=
  match engine, read patch with
  | .sqlite, some value | .mysql, some value =>
      some (Json.mergePatch (.object document) value)
  | .postgres, some (.object fields) => some (.object (document.insertMany fields.entries))
  | _, _ => none

/-- An engine that reads a patch of plain values puts them in one after the other. -/
theorem Sql.JsonDialect.merged_plain (engine : Sql.JsonDialect) {read : String → Option Json}
    {patch : String} {fields : Fields Json} (understood : read patch = some (.object fields))
    (plain : ∀ entry ∈ fields.entries, Update.patch?.isPlain entry.2 = true)
    (document : Document) :
    engine.merged read document patch = some (.object (document.insertMany fields.entries)) := by
  rcases fields with ⟨entries⟩
  cases engine with
  | sqlite | mysql =>
      simp only [merged, understood, Json.mergePatch, Json.fieldsOrEmpty]
      rw [Update.mergeEntries_plain plain]
  | postgres => simp only [merged, understood]

/-! ## Updates that are sent as patches -/

namespace Update

/-- What is known of an update that is sent as a patch. -/
structure IsPatch (change : Document) (text : String) : Prop where
  read : ofDocument change = .ok (.merge change)
  nonempty : change.entries ≠ []
  plain : ∀ entry ∈ change.entries, patch?.isPlain entry.2 = true
  text_eq : text = change.text

/-- A merge is read from its own fields, which do not mention the id. -/
theorem eq_of_ofDocument {change fields : Document}
    (read : ofDocument change = .ok (.merge fields)) :
    fields = change ∧ change.contains idField = false := by
  rw [ofDocument] at read
  split at read
  · split at read
    · cases read
    · next absent =>
        cases read
        exact ⟨rfl, Bool.not_eq_true _ ▸ absent⟩
  · split at read
    · cases parts : partOfEntries change.entries with
      | error error =>
          rw [parts] at read
          cases read
      | ok part =>
          rw [parts] at read
          cases read
    · cases read

theorem isPatch_of_patch? {change : Document} {update : Update} {text : String}
    (read : ofDocument change = .ok update) (sent : update.patch? = some text) :
    update = .merge change ∧ IsPatch change text := by
  cases update with
  | operators assignments increments removals => cases sent
  | merge fields =>
      rcases eq_of_ofDocument read with ⟨rfl, -⟩
      rw [patch?] at sent
      split at sent
      · next suitable =>
          rw [Bool.and_eq_true, List.all_eq_true] at suitable
          cases sent
          refine ⟨rfl, read, ?_, suitable.2, rfl⟩
          simpa [Fields.isEmpty] using suitable.1
      · cases sent

theorem IsPatch.field_ne {change : Document} {text : String} (isPatch : IsPatch change text) :
    ∀ entry ∈ change.entries, entry.1 ≠ idField := by
  intro entry member isId
  have absent := (eq_of_ofDocument isPatch.read).2
  have present : change.contains idField = true :=
    List.lookup_isSome_iff.2 ⟨entry, member, by simp [isId]⟩
  rw [absent] at present
  cases present

end Update

/-- The engine's merge of a patch into a stored document is the same document as
the one that the update computes. -/
theorem Update.IsPatch.exists_merged {change : Document} {text : String}
    (isPatch : IsPatch change text) (engine : Sql.JsonDialect) {read : String → Option Json}
    (understood : read text = some (.object change)) {raw : String} {document : Document}
    (decoded : Document.decode raw = .ok document) :
    ∃ merged, engine.merged read document text = some (.object merged) ∧
      same (.object merged) (.object ((Update.merge change).apply document).1) = true := by
  have proper := proper_object_iff.1 (Document.proper_of_decode decoded)
  have alike : List.Forall₂ Alike document.entries document.entries :=
    List.forall₂_same.2 fun entry member => ⟨rfl, same_self _ (proper.2 entry member)⟩
  have fields : ∀ entry ∈ change.entries,
      entry.1 ≠ idField ∧ patch?.isPlain entry.2 = true :=
    fun entry member => ⟨isPatch.field_ne entry member, isPatch.plain entry member⟩
  rcases Document.alike_applyEach fields alike proper.1 with ⟨alike, distinct⟩
  exact ⟨_, engine.merged_plain understood isPatch.plain document, same_of_alike distinct alike⟩

/-- Every call of the session carries a command of this kind. -/
def Session.Sends (allowed : Sql.Command → Prop) : Session α → Prop
  | .done _ => True
  | .query call next => allowed call.command ∧ ∀ rows, Sends allowed (next rows)
  | .execute call next => allowed call.command ∧ ∀ affected, Sends allowed (next affected)
  | .freshId next => ∀ id, Sends allowed (next id)

namespace Session

variable {allowed : Sql.Command → Prop}

theorem Sends.lift (computation : Except Error α) :
    (liftM computation : Session α).Sends allowed :=
  trivial

theorem Sends.pure (value : α) : (Pure.pure value : Session α).Sends allowed := trivial

theorem Sends.bind {session : Session α} {rest : α → Session β} (first : session.Sends allowed)
    (second : ∀ value, (rest value).Sends allowed) : (session >>= rest).Sends allowed := by
  change (session.bind rest).Sends allowed
  induction session with
  | done result =>
      cases result with
      | ok value => exact second value
      | error error => trivial
  | query call next ih => exact ⟨first.1, fun rows => ih rows (first.2 rows)⟩
  | execute call next ih => exact ⟨first.1, fun affected => ih affected (first.2 affected)⟩
  | freshId next ih => exact fun id => ih id (first id)

theorem Sends.lift_bind {computation : Except Error α} {rest : α → Session β}
    (second : ∀ value, computation = .ok value → (rest value).Sends allowed) :
    ((liftM computation : Session α) >>= rest).Sends allowed := by
  cases computation with
  | error error => trivial
  | ok value => exact second value rfl

theorem Sends.mono {stronger : Sql.Command → Prop} {session : Session α}
    (sends : session.Sends stronger) (weaken : ∀ command, stronger command → allowed command) :
    session.Sends allowed := by
  induction session with
  | done result => trivial
  | query call next ih => exact ⟨weaken _ sends.1, fun rows => ih rows (sends.2 rows)⟩
  | execute call next ih => exact ⟨weaken _ sends.1, fun affected => ih affected (sends.2 affected)⟩
  | freshId next ih => exact fun id => ih id (sends id)

theorem Sends.of_mem_transcript {engine : Engine σ} {ids : IdSource ι} {session : Session α}
    (sends : session.Sends allowed) {state : σ} {source : ι} {exchange : Exchange}
    (member : exchange ∈ session.transcript engine ids state source) :
    allowed exchange.call.command := by
  induction session generalizing state source with
  | done result => cases member
  | query call next ih =>
      rcases answered : engine.query call state with ⟨answer, after⟩
      cases answer with
      | error error =>
          rw [transcript_query_error answered, List.mem_singleton] at member
          exact member ▸ sends.1
      | ok rows =>
          rw [transcript_query_ok answered] at member
          rcases List.mem_cons.1 member with rfl | later
          · exact sends.1
          · exact ih rows (sends.2 rows) later
  | execute call next ih =>
      rcases answered : engine.execute call state with ⟨answer, after⟩
      cases answer with
      | error error =>
          rw [transcript_execute_error answered, List.mem_singleton] at member
          exact member ▸ sends.1
      | ok affected =>
          rw [transcript_execute_ok answered] at member
          rcases List.mem_cons.1 member with rfl | later
          · exact sends.1
          · exact ih affected (sends.2 affected) later
  | freshId next ih => exact ih _ (sends _) member

end Session

open Session

/-- Patches are of this kind; other commands are not looked at. -/
def Sql.Command.PatchesAs (allowed : Sql.RowKey → String → Prop) : Sql.Command → Prop
  | .patch key text => allowed key text
  | _ => True

theorem Sql.Command.PatchesAs.mono {allowed weaker : Sql.RowKey → String → Prop}
    {command : Sql.Command} (patches : command.PatchesAs allowed)
    (weaken : ∀ key text, allowed key text → weaker key text) : command.PatchesAs weaker := by
  cases command with
  | patch key text => exact weaken key text patches
  | _ => trivial

theorem Sql.Command.command_of_call {dialect : Sql.Dialect} {table : String}
    {command : Sql.Command} :
    Ensures (fun call : Sql.Call => call.command = command) (command.call dialect table) := by
  apply (Ensures.trivially _).bind
  intro statement _
  exact Ensures.pure rfl

theorem FindPlan.build_selects (dialect : Sql.Dialect) (table : String) (filter : Filter)
    (options : FindOptions) (allowed : Sql.RowKey → String → Prop) :
    Ensures (fun plan => plan.call.command.PatchesAs allowed)
      (FindPlan.build dialect table filter options) := by
  have select (predicate : Sql.Predicate) (order : Option (List SortTerm))
      (limit skip : Option Nat) (scan : Option ScanPlan) (projection : Option Projection) :
      Ensures (fun plan : FindPlan => plan.call.command.PatchesAs allowed) (do
        return ⟨← (Sql.Command.select predicate order limit skip).call dialect table, scan,
          projection⟩) := by
    apply Sql.Command.command_of_call.bind
    intro call same
    apply Ensures.pure
    rw [same]
    trivial
  apply (Ensures.trivially _).bind
  intro projection _
  apply (Ensures.trivially _).bind
  intro sort _
  apply (Ensures.trivially (filter.choice dialect)).bind
  intro choice _
  cases choice.rowTest with
  | none => exact select _ _ _ _ _ _
  | some test => exact select _ _ _ _ _ _

theorem Filter.callWhere?_carries (dialect : Sql.Dialect) (table : String)
    (command : Sql.Predicate → Sql.Command) (filter : Filter) :
    Ensures (fun call => ∀ own ∈ call, ∃ predicate, own.command = command predicate)
      (filter.callWhere? dialect table command) := by
  apply (Ensures.trivially (filter.choice dialect)).bind
  intro choice _
  split
  · exact Ensures.pure nofun
  · apply Sql.Command.command_of_call.bind
    intro call same
    apply Ensures.pure
    rintro own ⟨⟩
    exact ⟨choice.predicate, same⟩

namespace Collection

variable (collection : Collection) {allowed : Sql.RowKey → String → Prop}

theorem sends_execute {kind : Sql.Command → Prop} {command : Sql.Command} (sound : kind command) :
    (collection.execute command).Sends kind := by
  apply Sends.lift_bind
  intro call written
  have same := Sql.Command.command_of_call.of_ok call written
  exact ⟨same ▸ sound, fun affected => trivial⟩

theorem sends_find (filter : Filter) (options : FindOptions) :
    (collection.find filter options).Sends (Sql.Command.PatchesAs allowed) := by
  apply Sends.lift_bind
  intro plan built
  exact ⟨(FindPlan.build_selects _ _ filter options allowed).of_ok plan built, fun rows => trivial⟩

theorem sends_snapshot (filter : Filter) (limit : Option Nat) :
    (collection.snapshot filter limit).Sends (Sql.Command.PatchesAs allowed) :=
  (collection.sends_find filter { limit }).bind fun cursor => Sends.lift cursor.allRows

theorem sends_findOne (filter : Filter) (options : FindOptions) :
    (collection.findOne filter options).Sends (Sql.Command.PatchesAs allowed) := by
  apply (collection.sends_find filter _).bind
  intro cursor
  cases cursor.advance.1 with
  | none => exact Sends.pure none
  | some item => exact (Sends.lift item).bind fun document => Sends.pure (some document)

theorem sends_count (filter : Filter) :
    (collection.count filter).Sends (Sql.Command.PatchesAs allowed) := by
  apply Sends.lift_bind
  intro call planned
  cases call with
  | some call =>
      rcases (filter.callWhere?_carries _ _ .count).of_ok _ planned call rfl with ⟨predicate, same⟩
      exact ⟨by rw [same]; trivial, fun rows => trivial⟩
  | none =>
      apply (collection.sends_find filter {}).bind
      intro cursor
      exact (Sends.lift cursor.allRows).bind fun rows => Sends.pure rows.length

theorem sends_insertOne (document : Document) :
    (collection.insertOne document).Sends (Sql.Command.PatchesAs allowed) := by
  have stamp : (stamp document).Sends (Sql.Command.PatchesAs allowed) := by
    apply (Sends.lift document.suppliedId?).bind
    intro supplied
    cases supplied with
    | some id => exact Sends.pure _
    | none => exact fun id => trivial
  apply stamp.bind
  intro both
  rcases both with ⟨id, stamped⟩
  apply ((collection.sends_find _ {}).bind fun cursor => Sends.pure _).bind
  intro taken
  cases taken with
  | true => trivial
  | false => exact (collection.sends_execute trivial).bind fun affected => Sends.pure id

theorem sends_deleteRows (rows : List StoredRow) :
    (collection.deleteRows rows).Sends (Sql.Command.PatchesAs allowed) := by
  induction rows with
  | nil => exact Sends.pure 0
  | cons row rest ih =>
      apply (collection.sends_execute trivial).bind
      intro deleted
      exact ih.bind fun more => Sends.pure (deleted + more)

theorem sends_deleteMany (filter : Filter) :
    (collection.deleteMany filter).Sends (Sql.Command.PatchesAs allowed) := by
  apply Sends.lift_bind
  intro call planned
  cases call with
  | some call =>
      rcases (filter.callWhere?_carries _ _ .deleteWhere).of_ok _ planned call rfl with
        ⟨predicate, same⟩
      exact ⟨by rw [same]; trivial, fun affected => trivial⟩
  | none => exact (collection.sends_snapshot filter none).bind collection.sends_deleteRows

/-- A row is patched by its id with the text of the patch, or written over. -/
theorem sends_writeBack (patch : Option String) (change : Document → Document × Bool)
    (rows : List StoredRow) :
    (collection.writeBack patch change rows).Sends (Sql.Command.PatchesAs fun key text =>
      patch = some text ∧ ∃ engine id, collection.dialect = .json engine ∧ key = .id id) := by
  induction rows with
  | nil => exact Sends.pure 0
  | cons row rest ih =>
      rw [writeBack]
      simp only []
      split
      · apply Sends.bind
        · apply sends_execute
          rcases row.key_cases collection.dialect with ⟨engine, id, json, key⟩ | key
          · rw [key]
            cases patch with
            | none => trivial
            | some text => exact ⟨rfl, engine, id, json, rfl⟩
          · rw [key]
            cases patch <;> trivial
        · intro affected
          exact ih.bind fun count => Sends.pure (count + 1)
      · exact ih

theorem sends_changeChosen (filter : Filter) (limit : Option Nat) (patch : Option String)
    (change : Document → Document × Bool) :
    (collection.changeChosen filter limit patch change).Sends
      (Sql.Command.PatchesAs fun key text =>
        patch = some text ∧ ∃ engine id, collection.dialect = .json engine ∧ key = .id id) := by
  apply (collection.sends_snapshot filter limit).bind
  intro rows
  apply (collection.sends_writeBack patch change rows).bind
  intro modified
  exact Sends.pure _

end Collection

/-- The patches of a change are those of an update that is sent as a patch. -/
theorem Change.sends_session (collection : Collection) (filter : Filter) (limit : Option Nat)
    (change : Change) :
    (change.session collection filter limit).Sends (Sql.Command.PatchesAs fun key text =>
      (∃ engine id, collection.dialect = .json engine ∧ key = .id id) ∧
        ∃ document, change = .update document ∧ Update.IsPatch document text) := by
  cases change with
  | update document =>
      apply Sends.lift_bind
      intro update read
      apply (collection.sends_changeChosen filter limit update.patch? update.apply).mono
      intro command patches
      apply patches.mono
      rintro key text ⟨sent, byId⟩
      exact ⟨byId, document, rfl, (Update.isPatch_of_patch? read sent).2⟩
  | replacement document =>
      apply (Sends.lift (checkReplacement document)).bind
      intro checked
      split
      · trivial
      · apply (collection.sends_changeChosen filter limit none document.replaceWith).mono
        intro command patches
        apply patches.mono
        rintro key text ⟨sent, -⟩
        cases sent

theorem Session.Sends.ignoring {allowed : Sql.Command → Prop} {session : Session α}
    (sends : session.Sends allowed) : (Session.ignoring session).Sends allowed :=
  sends.bind fun _ => Sends.pure ()

/-- Whether a request is the change of one or all chosen documents by an update. -/
def Request.Updates (request : Request) (document : Document) : Prop :=
  ∃ filter, request = .changeOne filter (.update document) ∨
    request = .changeMany filter (.update document)

/-- The patches of a request are those of an update that is sent as a patch. -/
theorem Request.sends_session (collection : Collection) (request : Request) :
    (request.session collection).Sends (Sql.Command.PatchesAs fun key text =>
      (∃ engine id, collection.dialect = .json engine ∧ key = .id id) ∧
        ∃ document, request.Updates document ∧ Update.IsPatch document text) := by
  cases request with
  | find filter options => exact (collection.sends_find filter options).ignoring
  | findOne filter options => exact (collection.sends_findOne filter options).ignoring
  | count filter => exact (collection.sends_count filter).ignoring
  | insertOne document => exact (collection.sends_insertOne document).ignoring
  | deleteOne filter =>
      exact ((collection.sends_snapshot filter (some 1)).bind collection.sends_deleteRows).ignoring
  | deleteMany filter => exact (collection.sends_deleteMany filter).ignoring
  | changeOne filter change =>
      rw [session, change.applyOne_eq]
      apply Sends.ignoring
      apply (change.sends_session collection filter (some 1)).mono
      intro command patches
      apply patches.mono
      rintro key text ⟨byId, document, rfl, isPatch⟩
      exact ⟨byId, document, ⟨filter, .inl rfl⟩, isPatch⟩
  | changeMany filter change =>
      rw [session, change.applyMany_eq]
      apply Sends.ignoring
      apply (change.sends_session collection filter none).mono
      intro command patches
      apply patches.mono
      rintro key text ⟨byId, document, rfl, isPatch⟩
      exact ⟨byId, document, ⟨filter, .inr rfl⟩, isPatch⟩

/-- A changed row with an id is patched if the update is sent as a patch, and
written over with the changed document if not. -/
theorem Collection.writeBack_of_id {name id : String} {engine : Sql.JsonDialect} {row : StoredRow}
    (stamped : row.document.id? = some id) (patch : Option String)
    (change : Document → Document × Bool) (rest : List StoredRow) :
    writeBack ⟨name, .json engine⟩ patch change (row :: rest) =
      if (change row.document).2 then do
        let _ ← execute ⟨name, .json engine⟩ (match patch with
          | some text => .patch (.id id) text
          | none => .overwrite (.id id) (change row.document).1.text)
        let count ← writeBack ⟨name, .json engine⟩ patch change rest
        return count + 1
      else writeBack ⟨name, .json engine⟩ patch change rest := by
  have key : row.key (.json engine) = .id id := by simp [StoredRow.key, stamped]
  rw [writeBack, key]
  cases patch <;> rfl

/-- Patching writes what updating computes. Let a stored document carry an id,
and let an update be sent as a patch, which the engine reads as the object that
it is the text of. Then a row that changes is patched by its id, and the engine's
merge is, key order aside, the document that would have been written over the
row. No request patches in any other case, whatever the engine answers. -/
theorem Update.patch_computes (engine : Sql.JsonDialect) (read : String → Option Json)
    {raw id text : String} {document change : Document} {update : Update}
    (decoded : Document.decode raw = .ok document) (stamped : document.id? = some id)
    (parsed : ofDocument change = .ok update) (sent : update.patch? = some text)
    (understood : read text = some (.object change)) :
    (∀ name rest, Collection.writeBack ⟨name, .json engine⟩ update.patch? update.apply
        (⟨raw, document⟩ :: rest) =
      if (update.apply document).2 then do
        let _ ← Collection.execute ⟨name, .json engine⟩ (.patch (.id id) text)
        let count ← Collection.writeBack ⟨name, .json engine⟩ update.patch? update.apply rest
        return count + 1
      else Collection.writeBack ⟨name, .json engine⟩ update.patch? update.apply rest) ∧
    (∃ merged, engine.merged read document text = some (.object merged) ∧
      same (.object merged) (.object (update.apply document).1) = true) ∧
    ∀ {σ ι : Type} (target : Engine σ) (ids : IdSource ι) (state : σ) (source : ι)
      (collection : Collection) (request : Request),
      ∀ exchange ∈ (request.session collection).transcript target ids state source,
        ∀ key patch, exchange.call.command = .patch key patch →
          (∃ own id, collection.dialect = .json own ∧ key = .id id) ∧
            ∃ change, request.Updates change ∧ IsPatch change patch := by
  rcases isPatch_of_patch? parsed sent with ⟨rfl, isPatch⟩
  refine ⟨?_, isPatch.exists_merged engine understood decoded, ?_⟩
  · intro name rest
    rw [sent, Collection.writeBack_of_id stamped]
  · intro σ ι target ids state source collection request exchange member key patch isCommand
    have patches := (request.sends_session collection).of_mem_transcript member
    rw [isCommand] at patches
    exact patches

/-- A name is patched into a document as the update puts it there. -/
theorem Update.patch_computes_of_name :
    ∃ merged, Sql.JsonDialect.sqlite.merged Json.read? ⟨[("_id", .string "a")]⟩
        "\x7b\"name\":\"x\"\x7d" = some (.object merged) ∧
      same (.object merged) (.object ((Update.merge ⟨[("name", .string "x")]⟩).apply
        ⟨[("_id", .string "a")]⟩).1) = true := by
  have decoded : Document.decode "\x7b\"_id\":\"a\"\x7d" = .ok ⟨[("_id", .string "a")]⟩ := rfl
  have sent : (Update.merge ⟨[("name", .string "x")]⟩).patch? =
    some "\x7b\"name\":\"x\"\x7d" := rfl
  have understood : Json.read? "\x7b\"name\":\"x\"\x7d" =
    some (.object ⟨[("name", .string "x")]⟩) := rfl
  have computes := patch_computes .sqlite Json.read? decoded rfl rfl sent understood
  exact computes.2.1

end DocTable
