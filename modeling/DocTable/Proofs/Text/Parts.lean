import DocTable.Text.Blank
import DocTable.Text.Split

/-!
# Parts of a text

Splitting undoes joining as long as no part holds the separator. Trimming a part cuts off blanks and
nothing else, so that a text without blanks at its ends is found among any blanks around it.
-/

namespace DocTable

variable {separator : Char}

theorem splitAt_append_cons {first : List Char} (rest : List Char) (plain : separator ∉ first) :
    splitAt separator (first ++ separator :: rest) = first :: splitAt separator rest := by
  induction first with
  | nil => simp [splitAt]
  | cons char others ih =>
      simp only [List.mem_cons, not_or] at plain
      rw [List.cons_append, splitAt, if_neg (Ne.symm plain.1), ih plain.2]

theorem splitAt_of_not_mem {text : List Char} (plain : separator ∉ text) :
    splitAt separator text = [text] := by
  induction text with
  | nil => rfl
  | cons char others ih =>
      simp only [List.mem_cons, not_or] at plain
      rw [splitAt, if_neg (Ne.symm plain.1), ih plain.2]

/-- Parts without the separator are found again, if there is one at all. -/
theorem splitAt_joinWith {parts : List (List Char)} (nonempty : parts ≠ [])
    (plain : ∀ part ∈ parts, separator ∉ part) :
    splitAt separator (joinWith [separator] parts) = parts := by
  induction parts with
  | nil => exact absurd rfl nonempty
  | cons part rest ih =>
      have plainPart : separator ∉ part := plain part List.mem_cons_self
      cases rest with
      | nil => rw [joinWith, splitAt_of_not_mem plainPart]
      | cons next others =>
          have later := ih (List.cons_ne_nil _ _) fun other member =>
            plain other (List.mem_cons_of_mem _ member)
          rw [joinWith, List.append_assoc, List.singleton_append,
            splitAt_append_cons _ plainPart, later]

/-- Whether a text neither begins nor ends with a blank. -/
def isTrimmed (text : List Char) : Bool :=
  text.head?.all (!isBlank ·) && text.getLast?.all (!isBlank ·)

theorem dropWhile_isBlank_of_head? {text : List Char}
    (first : text.head?.all (!isBlank ·) = true) : text.dropWhile isBlank = text := by
  cases text with
  | nil => rfl
  | cons char rest => exact List.dropWhile_cons_of_neg (by simpa using first)

theorem isTrimmed_cons {first : Char} {rest : List Char} (shown : isBlank first = false)
    (trimmed : isTrimmed rest = true) : isTrimmed (first :: rest) = true := by
  rw [isTrimmed, Bool.and_eq_true] at trimmed ⊢
  refine ⟨by simp [shown], ?_⟩
  cases rest with
  | nil => simp [shown]
  | cons second others =>
      rw [List.getLast?_cons_cons]
      exact trimmed.2

theorem trimBlanks_surrounded {text before after : List Char} (trimmed : isTrimmed text = true)
    (blankBefore : before.all isBlank = true) (blankAfter : after.all isBlank = true) :
    trimBlanks (before ++ text ++ after) = text := by
  rw [List.all_eq_true] at blankBefore blankAfter
  rw [isTrimmed, Bool.and_eq_true] at trimmed
  rw [trimBlanks, List.append_assoc, List.dropWhile_append_of_pos blankBefore]
  cases text with
  | nil =>
      rw [← List.append_nil after, List.nil_append, List.dropWhile_append_of_pos blankAfter]
      rfl
  | cons char rest =>
      have first : (char :: rest ++ after).dropWhile isBlank = char :: rest ++ after :=
        dropWhile_isBlank_of_head? (by simpa using trimmed.1)
      have last : (char :: rest).reverse.dropWhile isBlank = (char :: rest).reverse :=
        dropWhile_isBlank_of_head? (by rw [List.head?_reverse]; exact trimmed.2)
      rw [first, List.reverse_append, List.dropWhile_append_of_pos (by simpa using blankAfter),
        last, List.reverse_reverse]

theorem exists_eq_trimBlanks (text : List Char) :
    ∃ before after, before.all isBlank = true ∧ after.all isBlank = true ∧
      text = before ++ trimBlanks text ++ after := by
  refine ⟨text.takeWhile isBlank, ((text.dropWhile isBlank).reverse.takeWhile isBlank).reverse,
    List.all_takeWhile, ?_, ?_⟩
  · rw [List.all_reverse]
    exact List.all_takeWhile
  · rw [trimBlanks, List.append_assoc, ← List.reverse_append, List.takeWhile_append_dropWhile,
      List.reverse_reverse, List.takeWhile_append_dropWhile]

theorem trimBlanks_eq_nil_iff {text : List Char} :
    trimBlanks text = [] ↔ text.all isBlank = true := by
  constructor
  · intro nothing
    obtain ⟨before, after, blankBefore, blankAfter, whole⟩ := exists_eq_trimBlanks text
    rw [whole, nothing, List.append_nil, List.all_append, blankBefore, blankAfter]
    rfl
  · intro blank
    exact @trimBlanks_surrounded [] [] text rfl rfl blank

end DocTable
