import DocTable.Json.Path
import DocTable.Proofs.Json.Proper

/-!
# Values up to the order of keys

One value is a reordering of another one if the entries of objects stand in some
other order, at any depth, and all else is alike. Looking up a path in both finds
nothing in either of them or values that are reorderings in turn. Equality of
documents is this relation, the two zeros being alike.
-/

namespace DocTable.Json

mutual

/-- Whether a value is another one with the entries of its objects in some order
and numbers that are alike. -/
def Reordered (alike : Number → Number → Prop) : Json → Json → Prop
  | .null, .null => True
  | .bool left, .bool right => left = right
  | .number left, .number right => alike left right
  | .string left, .string right => left = right
  | .array left, .array right => ReorderedElements alike left right
  | .object ⟨left⟩, .object ⟨right⟩ => ReorderedEntries alike left right
  | _, _ => False

/-- Whether the elements of two lists are reorderings of each other one by one. -/
def ReorderedElements (alike : Number → Number → Prop) : List Json → List Json → Prop
  | [], [] => True
  | left :: leftRest, right :: rightRest =>
      Reordered alike left right ∧ ReorderedElements alike leftRest rightRest
  | _, _ => False

/-- Whether each entry has its own counterpart, which is the first entry of its
name, and no entry is left over. -/
def ReorderedEntries (alike : Number → Number → Prop) :
    List (String × Json) → List (String × Json) → Prop
  | [], entries => entries = []
  | (key, left) :: rest, entries => ∃ before right after,
      entries = before ++ (key, right) :: after ∧ key ∉ before.map (·.1) ∧
        Reordered alike left right ∧ ReorderedEntries alike rest (before ++ after)

end

variable {alike : Number → Number → Prop} {left right : Json}

/-- Reorderings have one type. -/
theorem Reordered.shape (reordered : Reordered alike left right) :
    match left with
    | .null => right = .null
    | .bool value => right = .bool value
    | .number value => ∃ other, right = .number other ∧ alike value other
    | .string value => right = .string value
    | .array elements => ∃ others, right = .array others ∧ ReorderedElements alike elements others
    | .object ⟨entries⟩ =>
        ∃ others, right = .object ⟨others⟩ ∧ ReorderedEntries alike entries others := by
  cases left with
  | null =>
      cases right with
      | null => rfl
      | _ => exact False.elim reordered
  | bool _ =>
      cases right with
      | bool _ => exact congrArg Json.bool (Eq.symm reordered)
      | _ => exact False.elim reordered
  | number _ =>
      cases right with
      | number _ => exact ⟨_, rfl, reordered⟩
      | _ => exact False.elim reordered
  | string _ =>
      cases right with
      | string _ => exact congrArg Json.string (Eq.symm reordered)
      | _ => exact False.elim reordered
  | array _ =>
      cases right with
      | array _ => exact ⟨_, rfl, reordered⟩
      | _ => exact False.elim reordered
  | object _ =>
      cases right with
      | object _ => exact ⟨_, rfl, reordered⟩
      | _ => exact False.elim reordered

/-- An entry is found behind entries of other names, and hides nothing but its own name. -/
theorem lookup_middle {before after : List (String × Json)} {key : String} {value : Json}
    (fresh : key ∉ before.map (·.1)) (name : String) :
    (before ++ (key, value) :: after).lookup name =
      if name = key then some value else (before ++ after).lookup name := by
  induction before with
  | nil =>
      by_cases same : name = key
      · simp [same]
      · simp [List.lookup_cons, beq_false_of_ne same, same]
  | cons entry rest ih =>
      rcases entry with ⟨other, first⟩
      rw [List.map_cons, List.mem_cons, not_or] at fresh
      by_cases here : name = other
      · subst here
        simp [Ne.symm fresh.1]
      · simp only [List.cons_append, List.lookup_cons, beq_false_of_ne here]
        exact ih fresh.2

theorem ReorderedEntries.lookup {left right : List (String × Json)}
    (reordered : ReorderedEntries alike left right) (name : String) :
    Option.Rel (Reordered alike) (left.lookup name) (right.lookup name) := by
  induction left generalizing right with
  | nil =>
      rw [ReorderedEntries] at reordered
      rw [reordered]
      exact .none
  | cons entry rest ih =>
      rcases entry with ⟨key, value⟩
      rw [ReorderedEntries] at reordered
      rcases reordered with ⟨before, other, after, rfl, fresh, head, tail⟩
      rw [lookup_middle fresh, List.lookup_cons]
      by_cases here : name = key
      · simp only [here, beq_self_eq_true, if_true]
        exact .some head
      · simp only [here, beq_false_of_ne here, if_false]
        exact ih tail

/-- A path leads to reorderings, or to nothing in both values. -/
theorem Reordered.lookup? (reordered : Reordered alike left right) (path : List String) :
    Option.Rel (Reordered alike) (left.lookup? path) (right.lookup? path) := by
  induction path generalizing left right with
  | nil => exact .some reordered
  | cons key rest ih =>
      have shape := reordered.shape
      cases left with
      | object fields =>
          rcases fields with ⟨entries⟩
          rcases shape with ⟨others, rfl, tail⟩
          have found := tail.lookup key
          rw [lookup?_cons_object, lookup?_cons_object, Fields.get?, Fields.get?]
          generalize entries.lookup key = first, others.lookup key = second at found
          cases found with
          | none => exact .none
          | some inner => exact ih inner
      | null | bool _ | string _ =>
          rw [shape]
          exact .none
      | number _ | array _ =>
          rcases shape with ⟨_, rfl, _⟩
          exact .none

/-- Entries with distinct names are reordered if each name leads to reorderings. -/
theorem ReorderedEntries.of_lookup {left right : List (String × Json)}
    (distinctLeft : (Fields.mk left).Distinct) (distinctRight : (Fields.mk right).Distinct)
    (agree : ∀ name, Option.Rel (Reordered alike) (left.lookup name) (right.lookup name)) :
    ReorderedEntries alike left right := by
  induction left generalizing right with
  | nil =>
      rw [ReorderedEntries]
      cases right with
      | nil => rfl
      | cons entry rest =>
          have first := agree entry.1
          rw [List.lookup_nil, List.lookup_cons_self] at first
          cases first
  | cons entry rest ih =>
      rcases entry with ⟨key, value⟩
      rcases List.nodup_cons.1 distinctLeft with ⟨other, distinctLeft⟩
      have first := agree key
      rw [List.lookup_cons_self] at first
      cases found : right.lookup key with
      | none =>
          rw [found] at first
          cases first
      | some counterpart =>
          rw [found] at first
          rcases List.lookup_eq_some_iff.1 found with ⟨before, after, rfl, fresh⟩
          have fresh : key ∉ before.map (·.1) := by
            intro member
            rcases List.mem_map.1 member with ⟨entry, inBefore, rfl⟩
            simpa using fresh entry inBefore
          have perm : (Fields.mk (before ++ (key, counterpart) :: after)).keys.Perm
              (key :: (Fields.mk (before ++ after)).keys) := by
            simp [Fields.keys]
          rcases List.nodup_cons.1 (perm.nodup_iff.1 distinctRight) with ⟨alone, distinctRight⟩
          rw [ReorderedEntries]
          refine ⟨before, counterpart, after, rfl, fresh, ?_, ?_⟩
          · cases first with
            | some head => exact head
          · apply ih distinctLeft distinctRight
            intro name
            by_cases here : name = key
            · subst here
              have noneLeft : rest.lookup name = none := Fields.get?_eq_none_iff.2 other
              have noneRight : (before ++ after).lookup name = none :=
                Fields.get?_eq_none_iff.2 alone
              rw [noneLeft, noneRight]
              exact .none
            · have tail := agree name
              rwa [lookup_middle fresh, if_neg here, List.lookup_cons, beq_false_of_ne here] at tail

/-- Objects are reordered exactly if each name leads to reorderings. -/
theorem reordered_object_iff {left right : Fields Json} (distinctLeft : left.Distinct)
    (distinctRight : right.Distinct) :
    Reordered alike (.object left) (.object right) ↔
      ∀ key, Option.Rel (Reordered alike) (left.get? key) (right.get? key) := by
  rcases left with ⟨left⟩
  rcases right with ⟨right⟩
  exact ⟨fun reordered => ReorderedEntries.lookup reordered,
    ReorderedEntries.of_lookup distinctLeft distinctRight⟩

/-! ## An equivalence -/

/-- What passes from the contents of containers to the containers holds of all values. -/
@[elab_as_elim]
theorem induction {motive : Json → Prop} (null : motive .null)
    (bool : ∀ value, motive (.bool value)) (number : ∀ value, motive (.number value))
    (string : ∀ value, motive (.string value))
    (array : ∀ elements, (∀ element ∈ elements, motive element) → motive (.array elements))
    (object : ∀ fields : Fields Json, (∀ entry ∈ fields.entries, motive entry.2) →
      motive (.object fields)) (value : Json) : motive value :=
  @Json.rec motive (fun elements => ∀ element ∈ elements, motive element)
    (fun fields => ∀ entry ∈ fields.entries, motive entry.2)
    (fun entries => ∀ entry ∈ entries, motive entry.2) (fun entry => motive entry.2)
    null bool number string array object
    (List.forall_mem_nil _) (fun _ _ head tail => List.forall_mem_cons.2 ⟨head, tail⟩)
    (fun _ each => each)
    (List.forall_mem_nil _) (fun _ _ head tail => List.forall_mem_cons.2 ⟨head, tail⟩)
    (fun _ _ own => own) value

theorem Reordered.refl (reflexive : ∀ number, alike number number) (value : Json) :
    Reordered alike value value := by
  induction value using Json.induction with
  | null => trivial
  | bool _ | string _ => rfl
  | number own => exact reflexive own
  | array elements each =>
      rw [Reordered]
      induction elements with
      | nil => trivial
      | cons element rest ih =>
          rcases List.forall_mem_cons.1 each with ⟨own, later⟩
          exact ⟨own, ih later⟩
  | object fields each =>
      rcases fields with ⟨entries⟩
      rw [Reordered]
      induction entries with
      | nil => rfl
      | cons entry rest ih =>
          rcases List.forall_mem_cons.1 each with ⟨own, later⟩
          exact ⟨[], entry.2, rest, rfl, List.not_mem_nil, own, ih later⟩

/-- Numbers may be compared less strictly. -/
theorem Reordered.mono {weaker : Number → Number → Prop}
    (implies : ∀ first second, alike first second → weaker first second)
    (reordered : Reordered alike left right) : Reordered weaker left right := by
  induction left using Json.induction generalizing right with
  | null | bool _ | string _ =>
      cases reordered.shape
      exact reordered
  | number own =>
      rcases reordered.shape with ⟨other, rfl, related⟩
      exact implies own other related
  | array elements each =>
      rcases reordered.shape with ⟨others, rfl, inner⟩
      clear reordered
      rw [Reordered]
      induction elements generalizing others with
      | nil =>
          cases others with
          | nil => trivial
          | cons _ _ => exact False.elim inner
      | cons element rest ih =>
          cases others with
          | nil => exact False.elim inner
          | cons other others =>
              rcases List.forall_mem_cons.1 each with ⟨own, later⟩
              exact ⟨own inner.1, ih later others inner.2⟩
  | object fields each =>
      rcases fields with ⟨entries⟩
      rcases reordered.shape with ⟨others, rfl, inner⟩
      clear reordered
      rw [Reordered]
      induction entries generalizing others with
      | nil => exact inner
      | cons entry rest ih =>
          rcases List.forall_mem_cons.1 each with ⟨own, later⟩
          rcases inner with ⟨before, other, after, rfl, fresh, head, tail⟩
          exact ⟨before, other, after, rfl, fresh, own head, ih later _ tail⟩

theorem rel_cases {α β : Type} {related : α → β → Prop} {left : Option α} {right : Option β}
    (rel : Option.Rel related left right) :
    left = none ∧ right = none ∨
      ∃ first second, left = some first ∧ right = some second ∧ related first second := by
  cases rel with
  | none => exact .inl ⟨rfl, rfl⟩
  | some own => exact .inr ⟨_, _, rfl, rfl, own⟩

theorem ReorderedElements.symm_of_mem {left right : List Json}
    (each : ∀ element ∈ left, ∀ other ∈ right,
      Reordered alike element other → Reordered alike other element)
    (reordered : ReorderedElements alike left right) : ReorderedElements alike right left := by
  induction left generalizing right with
  | nil =>
      cases right with
      | nil => trivial
      | cons _ _ => exact False.elim reordered
  | cons element rest ih =>
      cases right with
      | nil => exact False.elim reordered
      | cons other others =>
          rw [ReorderedElements] at reordered ⊢
          refine ⟨each _ List.mem_cons_self _ List.mem_cons_self reordered.1, ih ?_ reordered.2⟩
          intro element member other inOthers
          exact each _ (List.mem_cons_of_mem _ member) _ (List.mem_cons_of_mem _ inOthers)

/-- Reorderings of proper values go both ways. -/
theorem Reordered.symm (symmetric : ∀ first second, alike first second → alike second first)
    (properLeft : left.Proper) (properRight : right.Proper)
    (reordered : Reordered alike left right) : Reordered alike right left := by
  induction left using Json.induction generalizing right with
  | null | bool _ | string _ =>
      cases reordered.shape
      exact reordered
  | number own =>
      rcases reordered.shape with ⟨other, rfl, related⟩
      exact symmetric own other related
  | array elements each =>
      rcases reordered.shape with ⟨others, rfl, inner⟩
      rw [Proper, properElements_iff] at properLeft properRight
      apply ReorderedElements.symm_of_mem _ inner
      intro element member other inOthers
      exact each element member (properLeft element member) (properRight other inOthers)
  | object fields each =>
      rcases fields with ⟨entries⟩
      rcases reordered.shape with ⟨others, rfl, -⟩
      have distinctLeft := (proper_object_iff.1 properLeft).1
      have distinctRight := (proper_object_iff.1 properRight).1
      rw [reordered_object_iff distinctRight distinctLeft]
      intro key
      rcases rel_cases ((reordered_object_iff distinctLeft distinctRight).1 reordered key) with
        ⟨noneLeft, noneRight⟩ | ⟨value, other, found, foundOther, related⟩
      · rw [noneLeft, noneRight]
        exact .none
      · rw [found, foundOther]
        exact .some (each _ (Fields.mem_of_get? found) (properLeft.get? found)
          (properRight.get? foundOther) related)

theorem ReorderedElements.trans_of_mem {left middle right : List Json}
    (each : ∀ element ∈ left, ∀ value, ∀ other ∈ right,
      Reordered alike element value → Reordered alike value other → Reordered alike element other)
    (first : ReorderedElements alike left middle) (second : ReorderedElements alike middle right) :
    ReorderedElements alike left right := by
  induction left generalizing middle right with
  | nil =>
      cases middle with
      | nil => exact second
      | cons _ _ => exact False.elim first
  | cons element rest ih =>
      cases middle with
      | nil => exact False.elim first
      | cons value values =>
          cases right with
          | nil => exact False.elim second
          | cons other others =>
              rw [ReorderedElements] at first second ⊢
              refine ⟨each _ List.mem_cons_self _ _ List.mem_cons_self first.1 second.1,
                ih ?_ first.2 second.2⟩
              intro element member value other inOthers
              exact each _ (List.mem_cons_of_mem _ member) _ _ (List.mem_cons_of_mem _ inOthers)

/-- A reordering of a reordering is one. -/
theorem Reordered.trans {middle : Json}
    (transitive : ∀ first second third, alike first second → alike second third →
      alike first third)
    (properLeft : left.Proper) (properRight : right.Proper)
    (first : Reordered alike left middle) (second : Reordered alike middle right) :
    Reordered alike left right := by
  induction left using Json.induction generalizing middle right with
  | null | bool _ | string _ =>
      cases first.shape
      exact second
  | number own =>
      rcases first.shape with ⟨value, rfl, related⟩
      rcases second.shape with ⟨other, rfl, next⟩
      exact transitive own value other related next
  | array elements each =>
      rcases first.shape with ⟨values, rfl, inner⟩
      rcases second.shape with ⟨others, rfl, next⟩
      rw [Proper, properElements_iff] at properLeft properRight
      apply ReorderedElements.trans_of_mem _ inner next
      intro element member value other inOthers
      exact each element member (properLeft element member) (properRight other inOthers)
  | object fields each =>
      rcases fields with ⟨entries⟩
      rcases first.shape with ⟨values, rfl, inner⟩
      rcases second.shape with ⟨others, rfl, next⟩
      rw [reordered_object_iff (proper_object_iff.1 properLeft).1
        (proper_object_iff.1 properRight).1]
      intro key
      have here := inner.lookup key
      have there := next.lookup key
      rcases rel_cases here with ⟨noneLeft, noneMiddle⟩ | ⟨own, value, found, foundValue, related⟩
      · rw [noneMiddle] at there
        rcases rel_cases there with ⟨-, noneRight⟩ | ⟨_, _, impossible, -⟩
        · rw [Fields.get?, Fields.get?, noneLeft, noneRight]
          exact .none
        · cases impossible
      · rw [foundValue] at there
        rcases rel_cases there with ⟨impossible, -⟩ | ⟨_, other, same, foundOther, after⟩
        · cases impossible
        · cases same
          rw [Fields.get?, Fields.get?, found, foundOther]
          exact .some (each (key, own) (Fields.mem_of_get? found) (properLeft.get? found)
            (properRight.get? foundOther) related after)

theorem sameEntries_congr {entries : List (String × Json)} {first second : Fields Json}
    (agree : ∀ entry ∈ entries, first.get? entry.1 = second.get? entry.1) :
    sameEntries entries first = sameEntries entries second := by
  induction entries with
  | nil => rfl
  | cons entry rest ih =>
      rcases entry with ⟨key, value⟩
      rcases List.forall_mem_cons.1 agree with ⟨head, tail⟩
      rw [sameEntries, sameEntries, head, ih tail]

/-- An entry behind entries of other names, and entries of other names. -/
theorem sameEntries_middle {before after rest : List (String × Json)} {key : String}
    {value : Json} (fresh : key ∉ before.map (·.1)) (others : key ∉ rest.map (·.1)) :
    sameEntries rest ⟨before ++ (key, value) :: after⟩ = sameEntries rest ⟨before ++ after⟩ := by
  apply sameEntries_congr
  intro entry member
  have different : entry.1 ≠ key := by
    rintro rfl
    exact others (List.mem_map_of_mem member)
  rw [Fields.get?, Fields.get?, lookup_middle fresh, if_neg different]

/-- Numbers of equal value. -/
def SameNumbers (left right : Number) : Prop := left.same right = true

mutual

/-- Equality of documents is reordering, the two zeros being alike. -/
theorem same_iff_reordered (left right : Json) (proper : left.Proper) :
    same left right = true ↔ Reordered SameNumbers left right := by
  match left with
  | .null =>
      cases right with
      | null => exact ⟨fun _ => trivial, fun _ => rfl⟩
      | _ => exact ⟨nofun, False.elim⟩
  | .bool _ =>
      cases right with
      | bool _ => exact beq_iff_eq
      | _ => exact ⟨nofun, False.elim⟩
  | .number _ =>
      cases right with
      | number _ => exact Iff.rfl
      | _ => exact ⟨nofun, False.elim⟩
  | .string _ =>
      cases right with
      | string _ => exact beq_iff_eq
      | _ => exact ⟨nofun, False.elim⟩
  | .array elements =>
      cases right with
      | array others =>
          rw [Proper] at proper
          rw [same]
          exact sameElements_iff_reordered elements others proper
      | _ => exact ⟨nofun, False.elim⟩
  | .object ⟨entries⟩ =>
      cases right with
      | object fields =>
          rw [Proper] at proper
          have iff := sameEntries_iff_reordered entries fields.entries proper.1 proper.2
          rw [same, Bool.and_eq_true, beq_iff_eq]
          exact iff
      | _ => exact ⟨nofun, False.elim⟩

theorem sameElements_iff_reordered (left right : List Json) (proper : ProperElements left) :
    sameElements left right = true ↔ ReorderedElements SameNumbers left right := by
  match left, right with
  | [], [] => exact ⟨fun _ => trivial, fun _ => rfl⟩
  | [], _ :: _ | _ :: _, [] => exact ⟨nofun, False.elim⟩
  | first :: rest, other :: others =>
      rw [ProperElements] at proper
      rw [sameElements, Bool.and_eq_true, ReorderedElements,
        same_iff_reordered first other proper.1, sameElements_iff_reordered rest others proper.2]

theorem sameEntries_iff_reordered (left right : List (String × Json))
    (distinct : (Fields.mk left).Distinct) (proper : ProperEntries left) :
    left.length = right.length ∧ sameEntries left ⟨right⟩ = true ↔
      ReorderedEntries SameNumbers left right := by
  match left with
  | [] =>
      rw [ReorderedEntries, List.length_nil, eq_comm, List.length_eq_zero_iff]
      exact ⟨And.left, fun empty => ⟨empty, rfl⟩⟩
  | (key, value) :: rest =>
      rcases List.nodup_cons.1 distinct with ⟨others, distinct⟩
      rw [ProperEntries] at proper
      rw [ReorderedEntries, sameEntries, Bool.and_eq_true]
      have inner (before after : List (String × Json)) :=
        sameEntries_iff_reordered rest (before ++ after) distinct proper.2
      constructor
      · rintro ⟨length, head, tail⟩
        cases found : Fields.get? ⟨right⟩ key with
        | none => simp [found] at head
        | some other =>
            simp only [found] at head
            rcases List.lookup_eq_some_iff.1 found with ⟨before, after, rfl, fresh⟩
            have fresh : key ∉ before.map (·.1) := by
              intro member
              rcases List.mem_map.1 member with ⟨entry, inBefore, rfl⟩
              simpa using fresh entry inBefore
            refine ⟨before, other, after, rfl, fresh, ?_, ?_⟩
            · exact (same_iff_reordered value other proper.1).1 head
            · rw [sameEntries_middle fresh others] at tail
              refine (inner before after).1 ⟨?_, tail⟩
              simp only [List.length_append, List.length_cons] at length ⊢
              omega
      · rintro ⟨before, other, after, rfl, fresh, head, tail⟩
        rcases (inner before after).2 tail with ⟨length, tail⟩
        have found : Fields.get? ⟨before ++ (key, other) :: after⟩ key = some other := by
          rw [Fields.get?, lookup_middle fresh, if_pos rfl]
        rw [sameEntries_middle fresh others, found]
        refine ⟨?_, (same_iff_reordered value other proper.1).2 head, tail⟩
        simp only [List.length_append, List.length_cons] at length ⊢
        omega

end

theorem sameOption_iff_rel {left right : Option Json}
    (proper : ∀ value, left = some value → value.Proper) :
    sameOption left right = true ↔ Option.Rel (Reordered SameNumbers) left right := by
  match left, right with
  | none, none => exact ⟨fun _ => .none, fun _ => rfl⟩
  | none, some _ | some _, none => exact ⟨nofun, nofun⟩
  | some left, some right =>
      have iff := same_iff_reordered left right (proper left rfl)
      refine ⟨fun same => .some (iff.1 same), ?_⟩
      rintro (related | _)
      exact iff.2 related

end DocTable.Json
