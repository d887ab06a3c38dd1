import Mathlib.Data.List.Forall2
import DocTable.Proofs.Document.Proper
import DocTable.Proofs.Update.Edit

/-!
# Independent entries of an update

Two entries of an update are independent if neither path leads to or into the other.
They may still share objects on the way, which the first of them creates, so two of
them commute up to the order of keys. A list of independent entries may then be made
in any order, and in particular in any order in which they can be written in an
update document.
-/

namespace DocTable

open Json

/-- Neither of two paths leads to the other's end or into it. -/
def Apart (first second : List String) : Prop := ¬first <+: second ∧ ¬second <+: first

instance (first second : List String) : Decidable (Apart first second) :=
  inferInstanceAs (Decidable (_ ∧ _))

theorem Apart.symm {first second : List String} (apart : Apart first second) :
    Apart second first := And.symm apart

namespace Edit

variable {edits others : List Edit} {first second : Edit} {place other : Option Json}
variable {alike : Number → Number → Prop} (equality : NumberEquality alike)

/-- An edit does not change what stands at the end of a path apart. -/
theorem changes_apply_of_apart (apart : Apart first.path second.path) (place : Option Json) :
    second.changes (first.apply place) = second.changes place := by
  rw [changes, apply, follow?_alter_of_not_prefix apart.1 apart.2, changes]

include equality

/-- Independent edits may be made in any order. -/
theorem rel_run_of_perm (own : ProperAll edits) (perm : edits.Perm others)
    (independent : edits.Pairwise fun first second => Apart first.path second.path)
    (proper : ProperAt place) (properOther : ProperAt other)
    (places : Option.Rel (Reordered alike) place other) :
    Option.Rel (Reordered alike) (run edits place) (run others other) ∧
      runChanges edits place = runChanges others other := by
  induction perm generalizing place other with
  | nil => exact ⟨places, rfl⟩
  | cons edit _ ih =>
      rcases List.forall_mem_cons.1 own with ⟨head, tail⟩
      rcases ih tail (List.pairwise_cons.1 independent).2 (properAt_apply head proper)
        (properAt_apply head properOther) (rel_apply equality edit proper properOther places) with
        ⟨last, more⟩
      refine ⟨last, ?_⟩
      rw [runChanges, runChanges, changes_eq equality head proper properOther places, more]
  | swap first second rest =>
      rcases List.forall_mem_cons.1 own with ⟨ownSecond, tail⟩
      rcases List.forall_mem_cons.1 tail with ⟨ownFirst, tail⟩
      have apart : Apart second.path first.path :=
        (List.pairwise_cons.1 independent).1 first List.mem_cons_self
      have afterBoth : ProperAt (first.apply (second.apply place)) :=
        properAt_apply ownFirst (properAt_apply ownSecond proper)
      have swapped : Option.Rel (Reordered alike) (first.apply (second.apply place))
          (second.apply (first.apply other)) :=
        rel_trans equality afterBoth
          (properAt_apply ownSecond (properAt_apply ownFirst properOther))
          (rel_alter_comm equality.refl proper apart.symm.1 apart.symm.2 _ _)
          (rel_apply equality second (properAt_apply ownFirst proper)
            (properAt_apply ownFirst properOther)
            (rel_apply equality first proper properOther places))
      rcases rel_run equality tail afterBoth
        (properAt_apply ownSecond (properAt_apply ownFirst properOther)) swapped with ⟨last, more⟩
      refine ⟨last, ?_⟩
      simp only [runChanges, more, changes_apply_of_apart apart,
        changes_apply_of_apart apart.symm, changes_eq equality ownFirst proper properOther places,
        changes_eq equality ownSecond proper properOther places, Bool.or_left_comm]
  | trans perm later ih ihLater =>
      have ownMiddle : ProperAll _ := fun edit member => own edit (perm.mem_iff.2 member)
      rcases ih own independent proper properOther places with ⟨last, more⟩
      rcases ihLater ownMiddle (perm.pairwise independent Apart.symm) properOther properOther
        (rel_refl equality.refl other) with ⟨lastLater, moreLater⟩
      have ownOthers : ProperAll _ := fun edit member => ownMiddle edit (later.mem_iff.2 member)
      exact ⟨rel_trans equality (properAt_run own proper) (properAt_run ownOthers properOther) last
        lastLater, more.trans moreLater⟩

end Edit

end DocTable
