import Mathlib.Data.List.Perm.Basic
import DocTable.Proofs.Document.Proper
import DocTable.Proofs.Update.Independence

/-!
# Update documents written in another order

The operators of an update document and the entries under each of them may be written
in any order: the document is read or refused all the same, and what is read has the
same entries under each operator. If these are independent, applying them yields the
same document, key order aside, and the same flag.
-/

namespace DocTable.Update

open Json

/-- Operands that hold the same entries, or the same elements, in some order. -/
def OperandRearranged : Json → Json → Prop
  | .object left, .object right => left.entries.Perm right.entries
  | .array left, .array right => left.Perm right
  | left, right => left = right

/-- Update documents with the same operators in some order, and under each of them the
same entries in some order. -/
def Rearranged (left right : Document) : Prop :=
  ∃ middle, left.entries.Perm middle ∧
    List.Forall₂ (fun first second => first.1 = second.1 ∧ OperandRearranged first.2 second.2)
      middle right.entries

theorem mapM_eq_ok_iff {α β : Type} {step : α → Except Error β} {list : List α} {values : List β} :
    list.mapM step = .ok values ↔
      List.Forall₂ (fun element value => step element = .ok value) list values := by
  induction list generalizing values with
  | nil =>
      rw [List.forall₂_nil_left_iff]
      exact ⟨fun read => (Except.ok.inj read).symm, fun empty => empty ▸ rfl⟩
  | cons element rest ih =>
      rw [List.mapM_cons, List.forall₂_cons_left_iff]
      constructor
      · intro read
        rcases exists_of_bind_eq_ok read with ⟨value, head, more⟩
        rcases exists_of_bind_eq_ok more with ⟨others, tail, whole⟩
        exact ⟨value, others, head, ih.1 tail, (Except.ok.inj whole).symm⟩
      · rintro ⟨value, others, head, tail, rfl⟩
        rw [head, ih.2 tail]
        rfl

/-- A list that is read element by element can be read in any order. -/
theorem mapM_of_perm {α β : Type} {step : α → Except Error β} {list other : List α}
    (perm : list.Perm other) {values : List β} (read : list.mapM step = .ok values) :
    ∃ others, other.mapM step = .ok others ∧ values.Perm others := by
  rcases List.perm_comp_forall₂ perm.symm (mapM_eq_ok_iff.1 read) with ⟨others, each, same⟩
  exact ⟨others, mapM_eq_ok_iff.2 each, same.symm⟩

/-- Contributions with the same entries in some order. -/
structure Part.Permuted (left right : Part) : Prop where
  assignments : left.assignments.Perm right.assignments
  increments : left.increments.Perm right.increments
  removals : left.removals.Perm right.removals

namespace Part.Permuted

variable {first second third other left right : Part}

theorem refl (part : Part) : part.Permuted part := ⟨.refl _, .refl _, .refl _⟩

theorem trans (before : first.Permuted second) (after : second.Permuted third) :
    first.Permuted third :=
  ⟨before.assignments.trans after.assignments, before.increments.trans after.increments,
    before.removals.trans after.removals⟩

theorem append (before : first.Permuted second) (after : left.Permuted right) :
    (first.append left).Permuted (second.append right) :=
  ⟨before.assignments.append after.assignments, before.increments.append after.increments,
    before.removals.append after.removals⟩

theorem append_left_comm (first second rest : Part) :
    (first.append (second.append rest)).Permuted (second.append (first.append rest)) := by
  have swap {α : Type} (one two three : List α) :
      (one ++ (two ++ three)).Perm (two ++ (one ++ three)) := by
    rw [← List.append_assoc, ← List.append_assoc]
    exact List.perm_append_comm.append_right three
  exact ⟨swap _ _ _, swap _ _ _, swap _ _ _⟩

end Part.Permuted

theorem partOfEntries_eq_ok_iff {entries : List (String × Json)} {part : Part} :
    partOfEntries entries = .ok part ↔
      ∃ parts, List.Forall₂ (fun entry own => partOfEntry entry.1 entry.2 = .ok own) entries parts ∧
        part = parts.foldr Part.append {} := by
  induction entries generalizing part with
  | nil =>
      constructor
      · intro read
        exact ⟨[], .nil, (Except.ok.inj read).symm⟩
      · rintro ⟨parts, each, rfl⟩
        cases each
        rfl
  | cons entry rest ih =>
      constructor
      · intro read
        rcases exists_of_bind_eq_ok read with ⟨first, head, more⟩
        rcases exists_of_bind_eq_ok more with ⟨others, tail, whole⟩
        rcases ih.1 tail with ⟨parts, each, rfl⟩
        exact ⟨first :: parts, .cons head each, (Except.ok.inj whole).symm⟩
      · rintro ⟨parts, each, rfl⟩
        cases each with
        | @cons _ first _ parts head tail =>
            have others := ih.2 ⟨parts, tail, rfl⟩
            rw [partOfEntries, head, others]
            rfl

namespace Part.Permuted

theorem foldr_of_perm {parts others : List Part} (perm : parts.Perm others) :
    (parts.foldr Part.append {}).Permuted (others.foldr Part.append {}) := by
  induction perm with
  | nil => exact refl _
  | cons part _ ih => exact (refl part).append ih
  | swap first second rest => exact append_left_comm second first _
  | trans _ _ before after => exact before.trans after

theorem foldr_of_forall₂ {parts others : List Part} (each : List.Forall₂ Permuted parts others) :
    (parts.foldr Part.append {}).Permuted (others.foldr Part.append {}) := by
  induction each with
  | nil => exact refl _
  | cons head _ ih => exact head.append ih

end Part.Permuted

/-- Elements that are read one by one contribute the same in any order. -/
theorem exists_part_of_perm {α β : Type} {step : α → Except Error β} {build : List β → Part}
    (builds : ∀ values others, values.Perm others → (build values).Permuted (build others))
    {list other : List α} (perm : list.Perm other) {part : Part}
    (read : (do return build (← list.mapM step)) = Except.ok part) :
    ∃ counterpart, (do return build (← other.mapM step)) = Except.ok counterpart ∧
      part.Permuted counterpart := by
  rcases exists_of_bind_eq_ok read with ⟨values, each, whole⟩
  cases whole
  rcases mapM_of_perm perm each with ⟨others, eachOther, same⟩
  exact ⟨build others, by rw [eachOther]; rfl, builds values others same⟩

/-- So do the fields of an operand. -/
theorem exists_part_of_fields {β : Type} {step : String × Json → Except Error β}
    {build : List β → Part}
    (builds : ∀ values others, values.Perm others → (build values).Permuted (build others))
    {key : String} {operand other : Json} (rearranged : OperandRearranged operand other)
    {part : Part}
    (read : (do return build (← (← fieldsOperand key operand).mapM step)) = Except.ok part) :
    ∃ counterpart,
      (do return build (← (← fieldsOperand key other).mapM step)) = Except.ok counterpart ∧
        part.Permuted counterpart := by
  cases operand with
  | object fields =>
      cases other with
      | object others => exact exists_part_of_perm builds rearranged read
      | _ => cases rearranged
  | _ => cases read

theorem partOfEntry_of_rearranged {key : String} {operand other : Json}
    (rearranged : OperandRearranged operand other) {part : Part}
    (read : partOfEntry key operand = .ok part) :
    ∃ counterpart, partOfEntry key other = .ok counterpart ∧ part.Permuted counterpart := by
  unfold partOfEntry at read ⊢
  cases operator : UpdateOperator.ofKey? key with
  | none =>
      rw [operator] at read
      cases read
  | some kind =>
      rw [operator] at read
      cases kind with
      | set =>
          exact exists_part_of_fields (fun _ _ same => ⟨same, .refl _, .refl _⟩) rearranged read
      | increment =>
          exact exists_part_of_fields (fun _ _ same => ⟨.refl _, same, .refl _⟩) rearranged read
      | unset =>
          have builds (values others : List FieldPath) (same : values.Perm others) :
              Part.Permuted { removals := values } { removals := others } :=
            ⟨.refl _, .refl _, same⟩
          cases operand with
          | array names =>
              cases other with
              | array others => exact exists_part_of_perm builds rearranged read
              | _ => cases rearranged
          | object fields =>
              cases other with
              | object others => exact exists_part_of_fields builds rearranged read
              | _ => cases rearranged
          | _ => cases read

/-- Operators whose operands are rearranged one by one. -/
theorem exists_parts_of_rearranged {entries others : List (String × Json)} {parts : List Part}
    (operands : List.Forall₂
      (fun first second => first.1 = second.1 ∧ OperandRearranged first.2 second.2) entries others)
    (each : List.Forall₂ (fun entry own => partOfEntry entry.1 entry.2 = .ok own) entries parts) :
    ∃ counterparts,
      List.Forall₂ (fun entry own => partOfEntry entry.1 entry.2 = .ok own) others counterparts ∧
        List.Forall₂ Part.Permuted parts counterparts := by
  induction operands generalizing parts with
  | nil =>
      cases each
      exact ⟨[], .nil, .nil⟩
  | @cons first second _ _ head _ ih =>
      rcases first with ⟨key, operand⟩
      rcases second with ⟨_, counterOperand⟩
      rcases head with ⟨rfl, rearranged⟩
      cases each with
      | cons own later =>
          rcases partOfEntry_of_rearranged rearranged own with ⟨counterpart, readOther, permuted⟩
          rcases ih later with ⟨counterparts, rest, permutedRest⟩
          exact ⟨counterpart :: counterparts, .cons readOther rest, .cons permuted permutedRest⟩

/-- The operators of a rearranged document contribute the same entries in some order. -/
theorem partOfEntries_of_rearranged {source other : Document} (rearranged : Rearranged source other)
    {part : Part} (read : partOfEntries source.entries = .ok part) :
    ∃ counterpart, partOfEntries other.entries = .ok counterpart ∧ part.Permuted counterpart := by
  rcases partOfEntries_eq_ok_iff.1 read with ⟨parts, each, rfl⟩
  rcases rearranged with ⟨middle, perm, operands⟩
  rcases List.perm_comp_forall₂ perm.symm each with ⟨moved, eachMoved, same⟩
  rcases exists_parts_of_rearranged operands eachMoved with ⟨others, eachOther, permuted⟩
  refine ⟨_, partOfEntries_eq_ok_iff.2 ⟨others, eachOther, rfl⟩, ?_⟩
  exact (Part.Permuted.foldr_of_perm same.symm).trans (Part.Permuted.foldr_of_forall₂ permuted)

theorem keys_of_rearranged {source other : Document} (rearranged : Rearranged source other) :
    source.keys.Perm other.keys := by
  rcases rearranged with ⟨middle, perm, operands⟩
  have same : middle.map (·.1) = other.keys := by
    rw [Fields.keys, ← List.forall₂_eq_eq_eq, List.forall₂_map_left_iff, List.forall₂_map_right_iff]
    exact operands.imp fun _ _ => And.left
  have moved : source.keys.Perm (middle.map (·.1)) := perm.map _
  exact same ▸ moved

/-- An update by operators is read from a rearranged document as well, with the same
entries in some order. -/
theorem ofDocument_of_rearranged {source other : Document} (rearranged : Rearranged source other)
    {assignments : List (FieldPath × Json)} {increments : List (FieldPath × Number)}
    {removals : List FieldPath}
    (read : ofDocument source = .ok (.operators assignments increments removals)) :
    ∃ part : Part,
      ofDocument other = .ok (.operators part.assignments part.increments part.removals) ∧
        Part.Permuted ⟨assignments, increments, removals⟩ part := by
  have keys := keys_of_rearranged rearranged
  rw [ofDocument] at read ⊢
  rw [← keys.all_eq, ← keys.all_eq]
  split at read
  · split at read <;> cases read
  · next mixed =>
      rw [if_neg mixed]
      split at read
      · next every =>
          rw [if_pos every]
          rcases exists_of_bind_eq_ok read with ⟨part, parts, whole⟩
          cases whole
          rcases partOfEntries_of_rearranged rearranged parts with
            ⟨counterpart, readOther, permuted⟩
          exact ⟨counterpart, by rw [readOther]; rfl, permuted⟩
      · cases read

/-! ## Applying -/

/-- The paths of an update by operators. -/
def paths (assignments : List (FieldPath × Json)) (increments : List (FieldPath × Number))
    (removals : List FieldPath) : List (List String) :=
  assignments.map (·.1.segments) ++ increments.map (·.1.segments) ++ removals.map (·.segments)

theorem map_path_edits (assignments : List (FieldPath × Json))
    (increments : List (FieldPath × Number)) (removals : List FieldPath) :
    (edits assignments increments removals).map (·.path) =
      paths assignments increments removals := by
  simp [edits, paths, Function.comp_def]

theorem edits_apart {assignments : List (FieldPath × Json)}
    {increments : List (FieldPath × Number)} {removals : List FieldPath}
    (independent : (paths assignments increments removals).Pairwise Apart) :
    (edits assignments increments removals).Pairwise
      fun first second => Apart first.path second.path := by
  rw [← List.pairwise_map, map_path_edits]
  exact independent

theorem edits_perm {assignments : List (FieldPath × Json)}
    {increments : List (FieldPath × Number)} {removals : List FieldPath} {part : Part}
    (permuted : Part.Permuted ⟨assignments, increments, removals⟩ part) :
    (edits assignments increments removals).Perm
      (edits part.assignments part.increments part.removals) :=
  ((permuted.assignments.map _).append (permuted.increments.map _)).append (permuted.removals.map _)

/-- Independent entries may be written in any order. Let an update document with operators be
read, and let no path in it lead to or into another one. Then it is read in any order of the
operators and of the entries under each of them, and every document becomes the same document,
key order aside, with the same flag. -/
theorem apply_rearranged {source other : Document} {assignments : List (FieldPath × Json)}
    {increments : List (FieldPath × Number)} {removals : List FieldPath}
    (proper : (Json.object source).Proper)
    (read : ofDocument source = .ok (.operators assignments increments removals))
    (independent : (paths assignments increments removals).Pairwise Apart)
    (rearranged : Rearranged source other) :
    ∃ update, ofDocument other = .ok update ∧ ∀ document, (Json.object document).Proper →
      Reordered Eq
          (.object ((Update.operators assignments increments removals).apply document).1)
          (.object (update.apply document).1) ∧
        ((Update.operators assignments increments removals).apply document).2 =
          (update.apply document).2 := by
  rcases ofDocument_of_rearranged rearranged read with ⟨part, readOther, permuted⟩
  refine ⟨_, readOther, ?_⟩
  intro document properDocument
  have own := properAll_edits ((ofDocument_ensures_proper proper).of_ok _ read)
  have apart := edits_apart independent
  have start := properAt_some.2 properDocument
  rcases Edit.rel_run_of_perm numberEquality_eq own (edits_perm permuted) apart start start
    (rel_refl numberEquality_eq.refl _) with ⟨runs, flags⟩
  rcases apply_operators assignments increments removals document with ⟨result, changed⟩
  rcases apply_operators part.assignments part.increments part.removals document with
    ⟨otherResult, otherChanged⟩
  rw [← result, ← otherResult] at runs
  rw [changed, otherChanged]
  refine ⟨?_, flags⟩
  cases runs with
  | some reordered => exact reordered

/-- Two entries create an object in place of a text, and a third one looks into it. -/
theorem apply_rearranged_of_shared :
    ∃ assignments increments removals update,
      ofDocument ⟨[("$set", .object ⟨[("a.b", .null), ("a.c", .bool true)]⟩),
        ("$unset", .array [.string "a.d", .string "x"])]⟩ =
          .ok (.operators assignments increments removals) ∧
      ofDocument ⟨[("$unset", .array [.string "x", .string "a.d"]),
        ("$set", .object ⟨[("a.c", .bool true), ("a.b", .null)]⟩)]⟩ = .ok update ∧
      Reordered Eq
        (.object ((Update.operators assignments increments removals).apply
          ⟨[("x", .null), ("a", .string "text")]⟩).1)
        (.object (update.apply ⟨[("x", .null), ("a", .string "text")]⟩).1) ∧
      (update.apply ⟨[("x", .null), ("a", .string "text")]⟩).2 = true := by
  have proper : (Json.object ⟨[("$set", .object ⟨[("a.b", .null), ("a.c", .bool true)]⟩),
      ("$unset", .array [.string "a.d", .string "x"])]⟩).Proper := by
    simp [Json.Proper, ProperEntries, ProperElements, Fields.Distinct, Fields.keys]
  have properDocument : (Json.object ⟨[("x", .null), ("a", .string "text")]⟩).Proper := by
    simp [Json.Proper, ProperEntries, Fields.Distinct, Fields.keys]
  have rearranged : Rearranged
      ⟨[("$set", .object ⟨[("a.b", .null), ("a.c", .bool true)]⟩),
        ("$unset", .array [.string "a.d", .string "x"])]⟩
      ⟨[("$unset", .array [.string "x", .string "a.d"]),
        ("$set", .object ⟨[("a.c", .bool true), ("a.b", .null)]⟩)]⟩ :=
    ⟨_, .swap _ _ _, .cons ⟨rfl, .swap _ _ _⟩ (.cons ⟨rfl, .swap _ _ _⟩ .nil)⟩
  rcases apply_rearranged proper rfl (by decide) rearranged with ⟨update, read, alike⟩
  rcases alike _ properDocument with ⟨same, flags⟩
  exact ⟨_, _, _, update, rfl, read, same, flags.symm.trans rfl⟩

end DocTable.Update
