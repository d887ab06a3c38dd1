import DocTable.Filter.Parser
import DocTable.Proofs.Json.Order

/-!
# Comparisons in filters and in sorting

Filters compare a value with a literal of its type, and sorting compares any two
values. The two comparisons are one: a comparison in a filter holds exactly of the
values of the literal's type which the order of values puts in that relation to the
literal. That order can be turned around and finds every value equal to itself.
-/

namespace DocTable

/-- A stored value and a literal are compared if they have one type, and then as values are. -/
theorem Scalar.compare?_eq_some_iff {value : Json} {literal : Scalar} {order : Ordering} :
    Scalar.compare? value literal = some order ↔
      ∃ own kind, value = Scalar.toJson own ∧ own.kind? = some kind ∧ literal.kind? = some kind ∧
        Json.compare value literal.toJson = order := by
  constructor
  · intro compared
    cases literal with
    | null => cases value <;> cases compared
    | bool _ =>
        cases value with
        | bool own => exact ⟨.bool own, .bool, rfl, rfl, rfl, Option.some.inj compared⟩
        | _ => cases compared
    | number _ =>
        cases value with
        | number own => exact ⟨.number own, .number, rfl, rfl, rfl, Option.some.inj compared⟩
        | _ => cases compared
    | string _ =>
        cases value with
        | string own => exact ⟨.string own, .string, rfl, rfl, rfl, Option.some.inj compared⟩
        | _ => cases compared
  · rintro ⟨own, kind, rfl, ownKind, kindOf, rfl⟩
    cases own <;> cases ownKind <;> cases literal <;> cases kindOf <;> rfl

namespace Condition

variable {document : Document} {path : FieldPath} {comparison : Comparison} {literal : Scalar}

/-- A comparison in a filter, in terms of the order by which documents are sorted. -/
theorem holds_compare_iff :
    (compare path comparison literal).holds document = true ↔
      ∃ own kind, document.lookup? path = some (Scalar.toJson own) ∧ own.kind? = some kind ∧
        literal.kind? = some kind ∧
        comparison.holds (Json.compareOption (document.lookup? path) (some literal.toJson)) =
          true := by
  rw [holds]
  cases found : document.lookup? path with
  | none => simp
  | some value =>
      rw [Option.bind_some]
      constructor
      · intro related
        cases compared : Scalar.compare? value literal with
        | none => simp [compared] at related
        | some order =>
            rw [compared] at related
            rcases Scalar.compare?_eq_some_iff.1 compared with
              ⟨own, kind, rfl, ownKind, kindOf, rfl⟩
            exact ⟨own, kind, rfl, ownKind, kindOf, related⟩
      · rintro ⟨own, kind, isOwn, ownKind, kindOf, related⟩
        cases isOwn
        rw [Scalar.compare?_eq_some_iff.2 ⟨own, kind, rfl, ownKind, kindOf, rfl⟩]
        exact related

theorem holds_equal_self (found : document.lookup? path = some literal.toJson) :
    (equal path literal).holds document = true := by
  have tie : Json.compareOption (document.lookup? path) (some literal.toJson) = .eq := by
    rw [found]
    exact Json.compare_self literal.toJson
  cases literal with
  | null =>
      rw [equal, holds, found]
      rfl
  | bool _ | number _ | string _ =>
      apply holds_compare_iff.2
      refine ⟨_, _, found, rfl, rfl, ?_⟩
      rw [tie]
      rfl

/-- The order of values that may be missing, and of documents under any terms, finds everything
equal to itself and is turned around with its operands. Comparisons in filters agree with it on
the values of the literal's type and hold of no others, so a document satisfies equality with its
own scalar. -/
theorem comparisons_consistent :
    (∀ left right : Option Json, Json.compareOption left left = .eq ∧
      Json.compareOption right left = (Json.compareOption left right).swap) ∧
    (∀ (terms : List SortTerm) (left right : Document),
      Document.compareBy terms left left = .eq ∧
        Document.compareBy terms right left = (Document.compareBy terms left right).swap) ∧
    (∀ (document : Document) (path : FieldPath) (comparison : Comparison) (literal : Scalar),
      (compare path comparison literal).holds document = true ↔
        ∃ own kind, document.lookup? path = some (Scalar.toJson own) ∧ own.kind? = some kind ∧
          literal.kind? = some kind ∧
          comparison.holds (Json.compareOption (document.lookup? path) (some literal.toJson)) =
            true) ∧
    ∀ (document : Document) (path : FieldPath) (literal : Scalar),
      document.lookup? path = some literal.toJson →
        (equal path literal).holds document = true := by
  refine ⟨?_, ?_, ?_, ?_⟩
  · intro left right
    exact ⟨Json.compare_self _, Json.compareOption_swap left right⟩
  · intro terms left right
    exact ⟨Document.compareBy_self terms left, Document.compareBy_swap terms left right⟩
  · intro document path comparison literal
    exact holds_compare_iff
  · intro document path literal found
    exact holds_equal_self found

/-- Negative zero is ordered apart from zero, and a document that holds it satisfies equality
with it. -/
theorem comparisons_consistent_of_zero :
    (equal (.ofName "n" (by decide)) (.number (.double Double.zero.negate))).holds
      ⟨[("n", .number (.double Double.zero.negate))]⟩ = true :=
  comparisons_consistent.2.2.2 _ _ _ rfl

end Condition

end DocTable
