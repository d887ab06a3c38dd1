import DocTable.Proofs.Update.Edit

/-!
# Projections

A projection copies to an empty document what the document has at one path after another. The
paths may lead to or into one another, and then a later one writes over what an earlier one has
brought, or into it. As all these values are the document's own, the kept document agrees with it
at all paths that have been copied, and consists of what is at these paths. This determines it up
to the order of keys, and a projection of it copies the same values once more.
-/

namespace DocTable

open Json

namespace Json

variable {source kept other : Option Json} {listed : List (List String)} {path : List String}

/-- Two values are equal up to the order of keys if every path leads to equal values or to objects
in both. -/
theorem reordered_of_lookup? {left right : Json} (proper : left.Proper)
    (properOther : right.Proper)
    (agree : ∀ path, left.lookup? path = right.lookup? path ∨
      (∃ fields, left.lookup? path = some (.object fields)) ∧
        ∃ fields, right.lookup? path = some (.object fields)) : Reordered Eq left right := by
  induction left using Json.induction generalizing right with
  | object fields ih =>
      obtain equal | ⟨-, others, found⟩ := agree []
      · exact Option.some.inj equal ▸ .refl (fun _ => rfl) _
      · cases found
        rw [reordered_object_iff (proper_object_iff.1 proper).1 (proper_object_iff.1 properOther).1]
        intro key
        have single (fields : Fields Json) :
            (Json.object fields).lookup? [key] = fields.get? key := by
          rw [lookup?_cons_object]
          cases fields.get? key <;> rfl
        obtain equal | ⟨⟨inner, found⟩, counterpart, foundOther⟩ := agree [key]
        · rw [single, single] at equal
          rw [equal]
          exact rel_refl (fun _ => rfl) _
        · rw [single] at found foundOther
          rw [found, foundOther]
          apply Option.Rel.some
          apply ih _ (Fields.mem_of_get? found) (proper.get? found) (properOther.get? foundOther)
          intro rest
          simpa [found, foundOther] using agree (key :: rest)
  | null | bool _ | number _ | string _ | array _ _ =>
      obtain equal | ⟨⟨fields, object⟩, -⟩ := agree []
      · exact Option.some.inj equal ▸ .refl (fun _ => rfl) _
      · cases object

/-- The place with what a source has at a path put there. -/
def copyAt (source kept : Option Json) (path : List String) : Option Json :=
  match follow? source path with
  | some value => alter (fun _ => some value) path kept
  | none => kept

/-- What is kept of a source at listed paths: at each of them all of it, and nothing that is not
on the way to one of them that is found, or behind it. -/
structure Keeps (source : Option Json) (listed : List (List String)) (kept : Option Json) :
    Prop where
  exact : ∀ path ∈ listed, follow? kept path = follow? source path
  within : ∀ path value, path ≠ [] → follow? kept path = some value →
    ∃ own ∈ listed, (∃ found, follow? source own = some found) ∧ (own <+: path ∨ path <+: own)

namespace Keeps

theorem empty (source : Option Json) : Keeps source [] (some (.object ∅)) where
  exact := nofun
  within := by
    intro path value nonempty found
    cases path with
    | nil => contradiction
    | cons key rest => cases found

variable (keeps : Keeps source listed kept)

include keeps

theorem eq_of_prefix {own : List String} (member : own ∈ listed) (behind : own <+: path) :
    follow? kept path = follow? source path := by
  obtain ⟨rest, rfl⟩ := behind
  rw [follow?_append, keeps.exact own member, ← follow?_append]

theorem exists_of_follow? {value : Json} (nonempty : path ≠ [])
    (present : follow? kept path = some value) : ∃ found, follow? source path = some found := by
  obtain ⟨own, member, ⟨found, ownFound⟩, behind | ⟨rest, rfl⟩⟩ :=
    keeps.within path value nonempty present
  · exact ⟨value, (keeps.eq_of_prefix member behind).symm.trans present⟩
  · rw [follow?_append] at ownFound
    cases stands : follow? source path with
    | none =>
        rw [stands] at ownFound
        cases ownFound
    | some inner => exact ⟨inner, rfl⟩

/-- What is kept lies behind a listed path that is found, or on the way to one. -/
theorem behind_or_before {value : Json} (nonempty : path ≠ [])
    (present : follow? kept path = some value) :
    (∃ own ∈ listed, own <+: path ∧ ∃ found, follow? source own = some found) ∨
      ∃ key rest found, path ++ key :: rest ∈ listed ∧
        follow? source (path ++ key :: rest) = some found := by
  obtain ⟨own, member, ⟨found, ownFound⟩, behind | ⟨rest, rfl⟩⟩ :=
    keeps.within path value nonempty present
  · exact .inl ⟨own, member, behind, found, ownFound⟩
  · cases rest with
    | nil =>
        rw [List.append_nil] at member ownFound
        exact .inl ⟨path, member, List.prefix_refl path, found, ownFound⟩
    | cons key rest => exact .inr ⟨key, rest, found, member, ownFound⟩

theorem exists_object {key : String} {rest : List String} {found : Json}
    (member : path ++ key :: rest ∈ listed)
    (stands : follow? source (path ++ key :: rest) = some found) :
    ∃ fields, follow? kept path = some (.object fields) := by
  rw [← keeps.exact _ member, follow?_append] at stands
  exact exists_object_of_follow? (List.cons_ne_nil key rest) stands

/-- A value without fields is part of what is at a listed path. -/
theorem leaf {value : Json} (nonempty : path ≠ []) (present : follow? kept path = some value)
    (bare : ∀ key, follow? kept (path ++ [key]) = none) :
    (∃ own ∈ listed, own <+: path ∧ ∃ found, follow? source own = some found) ∧
      follow? source path = some value := by
  obtain behind | ⟨key, rest, found, member, stands⟩ := keeps.behind_or_before nonempty present
  · obtain ⟨own, member, leads, stands⟩ := behind
    exact ⟨⟨own, member, leads, stands⟩, (keeps.eq_of_prefix member leads).symm.trans present⟩
  · rw [← keeps.exact _ member, List.append_cons, follow?_append, bare key] at stands
    cases stands

/-- Where something is kept, the same is kept for other lists of the same paths, or objects are. -/
theorem eq_or_objects {others : List (List String)} (keepsOther : Keeps source others other)
    (same : ∀ path ∈ listed, path ∈ others) {value : Json} (nonempty : path ≠ [])
    (present : follow? kept path = some value) :
    follow? kept path = follow? other path ∨
      (∃ fields, follow? kept path = some (.object fields)) ∧
        ∃ fields, follow? other path = some (.object fields) := by
  obtain ⟨own, member, leads, -⟩ | ⟨key, rest, found, member, stands⟩ :=
    keeps.behind_or_before nonempty present
  · left
    rw [keeps.eq_of_prefix member leads, keepsOther.eq_of_prefix (same own member) leads]
  · exact .inr ⟨keeps.exists_object member stands, keepsOther.exists_object (same _ member) stands⟩

/-- One more path is copied. -/
theorem copyAt (nonempty : path ≠ []) :
    Keeps source (path :: listed) (copyAt source kept path) := by
  rw [Json.copyAt]
  cases found : follow? source path with
  | none =>
      have absent : follow? kept path = none := by
        cases present : follow? kept path with
        | none => rfl
        | some value =>
            obtain ⟨_, stands⟩ := keeps.exists_of_follow? nonempty present
            exact absurd (stands.symm.trans found) (Option.some_ne_none _)
      constructor
      · exact List.forall_mem_cons.2 ⟨absent.trans found.symm, keeps.exact⟩
      · intro other value nonempty present
        obtain ⟨own, member, near⟩ := keeps.within other value nonempty present
        exact ⟨own, List.mem_cons_of_mem path member, near⟩
  | some value =>
      constructor
      · refine List.forall_mem_cons.2 ⟨(follow?_alter_self _ path kept).trans found.symm, ?_⟩
        intro own member
        by_cases behind : path <+: own
        · obtain ⟨rest, rfl⟩ := behind
          rw [follow?_append, follow?_alter_self, follow?_append, found]
        · by_cases before : own <+: path
          · obtain ⟨rest, rfl⟩ := before
            rw [follow?_append] at found
            rw [follow?_alter_append, keeps.exact own member, alter_of_eq found.symm]
          · have untouched := follow?_alter_of_not_prefix behind before (fun _ => some value) kept
            rw [untouched, keeps.exact own member]
      · intro other inner nonempty present
        by_cases near : path <+: other ∨ other <+: path
        · exact ⟨path, List.mem_cons_self, ⟨value, found⟩, near⟩
        · obtain ⟨behind, before⟩ := not_or.1 near
          have untouched := follow?_alter_of_not_prefix behind before (fun _ => some value) kept
          obtain ⟨own, member, near⟩ :=
            keeps.within other inner nonempty (untouched.symm.trans present)
          exact ⟨own, List.mem_cons_of_mem path member, near⟩

theorem foldl_copyAt {paths : List (List String)} (nonempty : ∀ path ∈ paths, path ≠ []) :
    Keeps source (paths.reverse ++ listed) (paths.foldl (Json.copyAt source) kept) := by
  induction paths generalizing kept listed with
  | nil => exact keeps
  | cons path rest ih =>
      obtain ⟨head, tail⟩ := List.forall_mem_cons.1 nonempty
      rw [List.reverse_cons, List.append_assoc]
      exact ih (keeps.copyAt head) tail

end Keeps

/-- What is kept is determined by the paths, up to the order of keys. -/
theorem Keeps.reordered_of_mem_iff {others : List (List String)} {left right : Fields Json}
    (keepsLeft : Keeps source listed (some (.object left)))
    (keepsRight : Keeps source others (some (.object right)))
    (same : ∀ path, path ∈ listed ↔ path ∈ others) (proper : (Json.object left).Proper)
    (properOther : (Json.object right).Proper) :
    Reordered Eq (.object left) (.object right) := by
  apply reordered_of_lookup? proper properOther
  intro path
  cases path with
  | nil => exact .inr ⟨⟨left, rfl⟩, right, rfl⟩
  | cons key rest =>
      have nonempty := List.cons_ne_nil key rest
      cases presentLeft : (Json.object left).lookup? (key :: rest) with
      | some value =>
          rw [← presentLeft]
          exact keepsLeft.eq_or_objects keepsRight (fun path => (same path).1) nonempty presentLeft
      | none =>
          cases presentRight : (Json.object right).lookup? (key :: rest) with
          | none => exact .inl rfl
          | some value =>
              rw [← presentLeft, ← presentRight]
              exact (keepsRight.eq_or_objects keepsLeft (fun path => (same path).2) nonempty
                presentRight).imp Eq.symm And.symm

theorem properAt_foldl_copyAt (properSource : ProperAt source) (proper : ProperAt kept)
    (paths : List (List String)) : ProperAt (paths.foldl (copyAt source) kept) := by
  induction paths generalizing kept with
  | nil => exact proper
  | cons path rest ih =>
      apply ih
      rw [copyAt]
      cases found : follow? source path with
      | none => exact proper
      | some value =>
          apply proper.alter path
          rw [← found]
          exact properSource.follow? path

theorem foldl_copyAt_congr {first second : Option Json} {paths : List (List String)}
    (agree : ∀ path ∈ paths, follow? first path = follow? second path) :
    paths.foldl (copyAt first) kept = paths.foldl (copyAt second) kept := by
  induction paths generalizing kept with
  | nil => rfl
  | cons path rest ih =>
      obtain ⟨head, tail⟩ := List.forall_mem_cons.1 agree
      rw [List.foldl_cons, List.foldl_cons, ih tail, copyAt, head, copyAt]

end Json

namespace Projection

/-- The paths to what is kept, with that of the id if it is kept as well. -/
def paths (projection : Projection) : List (List String) :=
  (if projection.includeId then [[idField]] else []) ++ projection.fields.map (·.segments)

variable (projection : Projection) {document : Document}

theorem path_ne_nil : ∀ path ∈ projection.paths, path ≠ [] := by
  intro path member
  rcases List.mem_append.1 member with isId | listed
  · split at isId
    · rw [List.mem_singleton.1 isId]
      exact List.cons_ne_nil _ _
    · cases isId
  · obtain ⟨field, -, rfl⟩ := List.mem_map.1 listed
    exact field.segments_ne_nil

theorem object_copyFrom (document target : Document) (path : FieldPath) :
    some (.object (document.copyFrom target path)) =
      copyAt (some (.object document)) (some (.object target)) path.segments := by
  have lookup : follow? (some (.object document)) path.segments = document.lookup? path := rfl
  rw [Document.copyFrom, copyAt, lookup]
  cases document.lookup? path with
  | none => rfl
  | some value => exact (Update.performs_set path value target).1

theorem object_apply (document : Document) :
    some (.object (projection.apply document)) =
      projection.paths.foldl (copyAt (some (.object document))) (some (.object ∅)) := by
  have copied (fields : List FieldPath) (start : Document) :
      some (.object (fields.foldl document.copyFrom start)) =
        (fields.map (·.segments)).foldl (copyAt (some (.object document)))
          (some (.object start)) := by
    induction fields generalizing start with
    | nil => rfl
    | cons path rest ih => rw [List.foldl_cons, ih, object_copyFrom, List.map_cons, List.foldl_cons]
  rw [apply, copied, paths, List.foldl_append]
  congr 1
  cases projection.includeId with
  | false => rfl
  | true =>
      have lookup : follow? (some (.object document)) [idField] = document.get? idField := by
        rw [follow?_cons, follow?_nil, fieldsAt_object]
      rw [if_pos rfl, List.foldl_cons, List.foldl_nil, copyAt, lookup]
      cases document.get? idField <;> rfl

theorem keeps_apply (document : Document) :
    Keeps (some (.object document)) projection.paths.reverse
      (some (.object (projection.apply document))) := by
  rw [object_apply, ← List.append_nil projection.paths.reverse]
  exact (Keeps.empty _).foldl_copyAt projection.path_ne_nil

theorem proper_apply (proper : (Json.object document).Proper) :
    (Json.object (projection.apply document)).Proper := by
  rw [← properAt_some, object_apply]
  exact properAt_foldl_copyAt (properAt_some.2 proper) (properAt_some.2 proper_empty) _

theorem reordered_apply_of_perm {fields : List FieldPath} (perm : fields.Perm projection.fields)
    (proper : (Json.object document).Proper) :
    Reordered Eq (.object (({ projection with fields } : Projection).apply document))
      (.object (projection.apply document)) := by
  refine (keeps_apply _ document).reordered_of_mem_iff (projection.keeps_apply document) ?_
    (proper_apply _ proper) (projection.proper_apply proper)
  intro path
  rw [List.mem_reverse, List.mem_reverse, paths, paths]
  exact ((perm.map _).append_left _).mem_iff

/-- A projection keeps what is at the listed paths and nothing else, in whatever way they overlap.
The kept document has at each path what the document has there. What it has anywhere, the document
has as well, and a value without fields is part of what the document has at one of the paths. A
projection of the kept document is the kept document, and the paths may be listed in any order,
up to the order of keys. -/
theorem apply_keeps_listed (proper : (Json.object document).Proper) :
    let kept := projection.apply document
    (∀ path ∈ projection.fields, kept.lookup? path = document.lookup? path) ∧
      (∀ path value, path ≠ [] → (Json.object kept).lookup? path = some value →
        (∃ found, (Json.object document).lookup? path = some found) ∧
          ((∀ key, (Json.object kept).lookup? (path ++ [key]) = none) →
            (∃ own ∈ projection.paths, own <+: path ∧
                ∃ found, (Json.object document).lookup? own = some found) ∧
              (Json.object document).lookup? path = some value)) ∧
        projection.apply kept = kept ∧
          ∀ fields : List FieldPath, fields.Perm projection.fields →
            same (.object (({ projection with fields } : Projection).apply document))
              (.object kept) = true := by
  intro kept
  have keeps : Keeps (some (.object document)) projection.paths.reverse (some (.object kept)) :=
    projection.keeps_apply document
  refine ⟨?_, ?_, ?_, ?_⟩
  · intro path listed
    exact keeps.exact path.segments
      (List.mem_reverse.2 (List.mem_append_right _ (List.mem_map_of_mem listed)))
  · intro path value nonempty present
    refine ⟨keeps.exists_of_follow? nonempty present, ?_⟩
    intro bare
    obtain ⟨⟨own, member, leads⟩, stands⟩ := keeps.leaf nonempty present bare
    exact ⟨⟨own, List.mem_reverse.1 member, leads⟩, stands⟩
  · have again : some (Json.object (projection.apply kept)) = some (.object kept) := by
      rw [object_apply, foldl_copyAt_congr fun path member =>
        keeps.exact path (List.mem_reverse.2 member), ← object_apply]
    exact Json.object.inj (Option.some.inj again)
  · intro fields perm
    rw [same_iff_reordered _ _ (proper_apply _ proper)]
    exact (projection.reordered_apply_of_perm perm proper).mono
      fun _ _ => numberEquality_eq.same _ _

/-- Paths into one another, one that is missing, and the id. -/
theorem apply_keeps_listed_of_nested :
    let document : Document := ⟨[("a", .object ⟨[("b", .null), ("c", .bool true)]⟩),
      ("_id", .string "x")]⟩
    let kept := Projection.apply ⟨[⟨["a", "b"], by decide, by decide⟩,
      ⟨["a"], by decide, by decide⟩, ⟨["d"], by decide, by decide⟩], true⟩ document
    kept = ⟨[("_id", .string "x"), ("a", .object ⟨[("b", .null), ("c", .bool true)]⟩)]⟩ ∧
      kept.lookup? ⟨["a"], by decide, by decide⟩ =
        document.lookup? ⟨["a"], by decide, by decide⟩ := by
  have proper : (Json.object ⟨[("a", .object ⟨[("b", .null), ("c", .bool true)]⟩),
      ("_id", .string "x")]⟩).Proper := by
    simp [Json.Proper, ProperEntries, Fields.Distinct, Fields.keys]
  refine ⟨rfl, (apply_keeps_listed ⟨[⟨["a", "b"], by decide, by decide⟩,
    ⟨["a"], by decide, by decide⟩, ⟨["d"], by decide, by decide⟩], true⟩ proper).1 _ ?_⟩
  simp

end Projection

end DocTable
