import DocTable.Proofs.Json.Order

/-!
# Stable sorting

A sorting of a list arranges its elements, each with the position that it had,
so that none is above a later one and equal ones stand in the order of their
positions. There is at most one sorting of a list. Insertion from the right finds
it if the comparison can be turned around and is transitive on the elements.
-/

namespace DocTable

variable {α β : Type}

/-- An element comes before another one: it is not above it, and if the two are equal its
position is less. -/
def Precedes (compare : α → α → Ordering) (left right : α × Nat) : Prop :=
  compare left.1 right.1 ≠ .gt ∧ (compare left.1 right.1 = .eq → left.2 < right.2)

instance (compare : α → α → Ordering) (left right : α × Nat) :
    Decidable (Precedes compare left right) :=
  inferInstanceAs (Decidable (_ ∧ _))

/-- The elements of a list with their positions, in ascending order. -/
structure IsSorting (compare : α → α → Ordering) (elements : List α)
    (arranged : List (α × Nat)) : Prop where
  perm : arranged.Perm elements.zipIdx
  ascending : arranged.Pairwise (Precedes compare)

/-- A list has one sorting at most. -/
theorem IsSorting.unique {compare : α → α → Ordering}
    (swap : ∀ left right, compare right left = (compare left right).swap) {elements : List α}
    {arranged other : List (α × Nat)} (sorting : IsSorting compare elements arranged)
    (otherSorting : IsSorting compare elements other) : arranged = other := by
  apply List.Perm.eq_of_pairwise _ sorting.ascending otherSorting.ascending
    (sorting.perm.trans otherSorting.perm.symm)
  rintro left right - - ⟨ascends, tie⟩ ⟨descends, tieBack⟩
  -- Neither is above the other, so each would have the lesser position.
  rw [swap left.1 right.1] at descends tieBack
  cases order : compare left.1 right.1 with
  | lt => exact absurd (by rw [order]; rfl) descends
  | gt => exact absurd order ascends
  | eq =>
      rw [order] at tie tieBack
      exact absurd (tie rfl) (Nat.lt_asymm (tieBack rfl))

theorem zipIdx_increasing (elements : List α) :
    elements.zipIdx.Pairwise fun left right => left.2 < right.2 := by
  rw [← List.pairwise_map (f := Prod.snd) (R := (· < ·)), List.zipIdx_map_snd]
  exact List.pairwise_lt_range'

theorem map_insertDescending (image : α → β) (compare : β → β → Ordering) (element : α)
    (elements : List α) :
    (insertDescending (fun left right => compare (image left) (image right)) element
        elements).map image =
      insertDescending compare (image element) (elements.map image) := by
  induction elements with
  | nil => rfl
  | cons next rest ih =>
      rw [List.map_cons, insertDescending, insertDescending]
      split
      · rw [List.map_cons, ih]
      · rfl

theorem map_stableSort (image : α → β) (compare : β → β → Ordering) (elements : List α) :
    (stableSort (fun left right => compare (image left) (image right)) elements).map image =
      stableSort compare (elements.map image) := by
  have fold (sorted : List α) :
      (elements.foldl (fun sorted element => insertDescending
          (fun left right => compare (image left) (image right)) element sorted) sorted).map image =
        (elements.map image).foldl (fun sorted element => insertDescending compare element sorted)
          (sorted.map image) := by
    induction elements generalizing sorted with
    | nil => rfl
    | cons element rest ih => rw [List.foldl_cons, ih, map_insertDescending]; rfl
  rw [stableSort, stableSort, List.map_reverse, fold]
  rfl

theorem stableSort_congr {compare other : α → α → Ordering} {elements : List α}
    (same : ∀ left ∈ elements, ∀ right ∈ elements, compare left right = other left right) :
    stableSort compare elements = stableSort other elements := by
  have onMembers : (fun left right : { element // element ∈ elements } =>
      compare left.1 right.1) = fun left right => other left.1 right.1 := by
    funext left right
    exact same left.1 left.2 right.1 right.2
  rw [← elements.attach_map_subtype_val, ← map_stableSort Subtype.val compare, onMembers,
    map_stableSort]

theorem stableSort_pair (compare : α → α → Ordering) (left right : α) :
    stableSort compare [left, right] =
      if compare right left = .lt then [right, left] else [left, right] := by
  change (if _ then _ else _ : List α).reverse = _
  split
  · rfl
  · rfl

theorem compare_self_of_swap {compare : α → α → Ordering}
    (swap : ∀ left right, compare right left = (compare left right).swap) (element : α) :
    compare element element = .eq := by
  have own := swap element element
  revert own
  cases compare element element <;> decide

/-- Two different elements are only sorted in the same way if either both comparisons put the
second one in front or none does. -/
theorem less_iff_of_stableSort_pair {compare other : α → α → Ordering} {left right : α}
    (apart : left ≠ right)
    (same : stableSort compare [left, right] = stableSort other [left, right]) :
    compare right left = .lt ↔ other right left = .lt := by
  rw [stableSort_pair, stableSort_pair] at same
  constructor
  · intro less
    by_contra stays
    rw [if_pos less, if_neg stays] at same
    exact apart (List.cons.inj same).1.symm
  · intro less
    by_contra stays
    rw [if_pos less, if_neg stays] at same
    exact apart (List.cons.inj same).1

/-- Two elements that are sorted in the same way, whichever of them stands first, compare in the
same way. -/
theorem eq_of_stableSort_pair {compare other : α → α → Ordering}
    (swap : ∀ left right, compare right left = (compare left right).swap)
    (otherSwap : ∀ left right, other right left = (other left right).swap) {left right : α}
    (forth : stableSort compare [left, right] = stableSort other [left, right])
    (back : stableSort compare [right, left] = stableSort other [right, left]) :
    compare left right = other left right := by
  by_cases same : left = right
  · rw [same, compare_self_of_swap swap, compare_self_of_swap otherSwap]
  · have less := less_iff_of_stableSort_pair (Ne.symm same) back
    have greater := less_iff_of_stableSort_pair same forth
    rw [swap left right, otherSwap left right, Ordering.swap_eq_lt, Ordering.swap_eq_lt] at greater
    cases own : compare left right with
    | lt => exact (less.1 own).symm
    | gt => exact (greater.1 own).symm
    | eq =>
        rw [own] at less greater
        cases found : other left right with
        | lt => exact absurd (less.2 found) (by decide)
        | gt => exact absurd (greater.2 found) (by decide)
        | eq => rfl

section

variable {compare : α → α → Ordering} {inside : α → Prop}
variable (swap : ∀ left right, compare right left = (compare left right).swap)
variable (chains : ∀ first second third, inside first → inside second → inside third →
  Chains (compare first second) (compare second third) (compare first third))

include swap chains

/-- An element from behind all others is put in its place. -/
theorem pairwise_insertDescending {element : α × Nat} {sorted : List (α × Nat)}
    (elementInside : inside element.1) (sortedInside : ∀ other ∈ sorted, inside other.1)
    (behind : ∀ other ∈ sorted, other.2 < element.2)
    (descending : sorted.Pairwise fun left right => Precedes compare right left) :
    (insertDescending (fun left right => compare left.1 right.1) element sorted).Pairwise
      fun left right => Precedes compare right left := by
  induction sorted with
  | nil => exact List.pairwise_singleton _ _
  | cons next rest ih =>
      rcases List.forall_mem_cons.1 sortedInside with ⟨nextInside, restInside⟩
      rcases List.forall_mem_cons.1 behind with ⟨nextBefore, restBefore⟩
      rcases List.pairwise_cons.1 descending with ⟨greatest, restDescending⟩
      rw [insertDescending]
      split
      · next less =>
          refine List.pairwise_cons.2 ⟨?_, ih restInside restBefore restDescending⟩
          intro other member
          rcases List.mem_cons.1 ((insertDescending_perm _ _ _).mem_iff.1 member) with rfl | inRest
          · rw [Precedes, less]
            exact ⟨by decide, fun equal => absurd equal (by decide)⟩
          · exact greatest other inRest
      · next notLess =>
          have nextAscends : compare next.1 element.1 ≠ .gt := by
            rw [swap element.1 next.1]
            intro above
            exact notLess (Ordering.swap_eq_gt.1 above)
          refine List.pairwise_cons.2 ⟨?_, descending⟩
          intro other member
          refine ⟨?_, fun _ => behind other member⟩
          rcases List.mem_cons.1 member with rfl | inRest
          · exact nextAscends
          · exact (chains other.1 next.1 element.1 (restInside other inRest) nextInside
              elementInside (greatest other inRest).1 nextAscends).1

/-- Elements in the order of their positions are put in their places one by one. -/
theorem pairwise_foldl_insertDescending {elements sorted : List (α × Nat)}
    (elementsInside : ∀ element ∈ elements, inside element.1)
    (sortedInside : ∀ other ∈ sorted, inside other.1)
    (increasing : elements.Pairwise fun left right => left.2 < right.2)
    (behind : ∀ other ∈ sorted, ∀ element ∈ elements, other.2 < element.2)
    (descending : sorted.Pairwise fun left right => Precedes compare right left) :
    (elements.foldl (fun sorted element =>
        insertDescending (fun left right => compare left.1 right.1) element sorted) sorted).Pairwise
      fun left right => Precedes compare right left := by
  induction elements generalizing sorted with
  | nil => exact descending
  | cons element rest ih =>
      rcases List.forall_mem_cons.1 elementsInside with ⟨elementInside, restInside⟩
      rcases List.pairwise_cons.1 increasing with ⟨least, restIncreasing⟩
      have inserted := insertDescending_perm
        (fun left right : α × Nat => compare left.1 right.1) element sorted
      apply ih restInside _ restIncreasing
      · intro other member later inRest
        rcases List.mem_cons.1 (inserted.mem_iff.1 member) with rfl | inSorted
        · exact least later inRest
        · exact behind other inSorted later (List.mem_cons_of_mem _ inRest)
      · exact pairwise_insertDescending swap chains elementInside sortedInside
          (fun other member => behind other member element List.mem_cons_self) descending
      · intro other member
        rcases List.mem_cons.1 (inserted.mem_iff.1 member) with rfl | inSorted
        · exact elementInside
        · exact sortedInside other inSorted

theorem exists_sorting {elements : List α} (elementsInside : ∀ element ∈ elements, inside element) :
    ∃ arranged, IsSorting compare elements arranged ∧
      arranged.map Prod.fst = stableSort compare elements := by
  refine ⟨stableSort (fun left right => compare left.1 right.1) elements.zipIdx,
    ⟨stableSort_perm _ _, ?_⟩, ?_⟩
  · rw [stableSort, List.pairwise_reverse]
    refine pairwise_foldl_insertDescending swap chains ?_ (List.forall_mem_nil _)
      (zipIdx_increasing elements) (List.forall_mem_nil _) .nil
    rintro ⟨element, position⟩ member
    exact elementsInside element (List.fst_mem_of_mem_zipIdx member)
  · rw [map_stableSort Prod.fst compare, List.zipIdx_map_fst]

end

end DocTable
