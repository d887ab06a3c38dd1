import DocTable.CommandLine.SortText
import DocTable.Proofs.Text.Parts

/-!
# Spellings of sort keys

A list of sort keys can be spelled in many ways: with or without a plus sign, with blanks around
the parts and with empty parts anywhere. Every text spells the keys that it is read as. If their
fields can stand in a list without a sign, it is read as these keys in all their spellings.
-/

namespace DocTable.CommandLine

/-- What a part spells: a minus sign makes a field descending, a plus sign or none ascending. A part
that begins with a sign spells two keys, but the field of one of them begins with the sign. -/
inductive PartSpells : List Char → SortKey → Prop where
  | minus (field : String) : PartSpells ('-' :: field.toList) ⟨field, .desc⟩
  | plus (field : String) : PartSpells ('+' :: field.toList) ⟨field, .asc⟩
  | plain (field : String) : PartSpells field.toList ⟨field, .asc⟩

/-- What parts spell: one key after the other, where blanks around a key and parts of blanks alone,
or of nothing, do not count. -/
inductive PartsSpell : List (List Char) → List SortKey → Prop where
  | nil : PartsSpell [] []
  | blank {part : List Char} {parts : List (List Char)} {keys : List SortKey} :
      part.all isBlank = true → PartsSpell parts keys → PartsSpell (part :: parts) keys
  | key {before part after : List Char} {key : SortKey} {parts : List (List Char)}
      {keys : List SortKey} :
      before.all isBlank = true → PartSpells part key → after.all isBlank = true →
        PartsSpell parts keys → PartsSpell ((before ++ part ++ after) :: parts) (key :: keys)

/-- What a text spells: the keys of parts with commas between them. -/
def TextSpells (text : String) (keys : List SortKey) : Prop :=
  ∃ parts, text.toList = joinWith [','] parts ∧ PartsSpell parts keys

/-- What a field needs to stand in a list without a sign: nothing in it separates parts, is cut off
or tells a direction. -/
structure IsPlain (field : List Char) : Prop where
  nonempty : field ≠ []
  no_comma : ',' ∉ field
  trimmed : isTrimmed field = true
  no_minus : field.head? ≠ some '-'
  no_plus : field.head? ≠ some '+'

instance : DecidablePred IsPlain := fun field =>
  decidable_of_iff (field ≠ [] ∧ ',' ∉ field ∧ isTrimmed field = true ∧ field.head? ≠ some '-' ∧
      field.head? ≠ some '+')
    ⟨fun ⟨nonempty, comma, trimmed, minus, plus⟩ => ⟨nonempty, comma, trimmed, minus, plus⟩,
      fun ⟨nonempty, comma, trimmed, minus, plus⟩ => ⟨nonempty, comma, trimmed, minus, plus⟩⟩

/-- The sort keys in parts. -/
def keysOfParts (parts : List (List Char)) : List SortKey :=
  ((parts.map trimBlanks).filter (· ≠ [])).map sortKeyOfPart

theorem keysOfParts_splitAt (text : String) :
    keysOfParts (splitAt ',' text.toList) = sortKeysOfText text := rfl

theorem keysOfParts_cons_of_blank {part : List Char} (parts : List (List Char))
    (blank : part.all isBlank = true) : keysOfParts (part :: parts) = keysOfParts parts := by
  simp [keysOfParts, trimBlanks_eq_nil_iff.2 blank]

theorem keysOfParts_cons {part : List Char} (parts : List (List Char))
    (something : trimBlanks part ≠ []) :
    keysOfParts (part :: parts) = sortKeyOfPart (trimBlanks part) :: keysOfParts parts := by
  simp [keysOfParts, something]

theorem partSpells_sortKeyOfPart (part : List Char) : PartSpells part (sortKeyOfPart part) := by
  unfold sortKeyOfPart
  split
  next field => simpa using PartSpells.minus (String.ofList field)
  next field => simpa using PartSpells.plus (String.ofList field)
  next => simpa using PartSpells.plain (String.ofList part)

theorem partsSpell_keysOfParts (parts : List (List Char)) :
    PartsSpell parts (keysOfParts parts) := by
  induction parts with
  | nil => exact .nil
  | cons part rest ih =>
      by_cases nothing : trimBlanks part = []
      · have blank := trimBlanks_eq_nil_iff.1 nothing
        rw [keysOfParts_cons_of_blank rest blank]
        exact .blank blank ih
      · obtain ⟨before, after, blankBefore, blankAfter, whole⟩ := exists_eq_trimBlanks part
        have spelled := partSpells_sortKeyOfPart (trimBlanks part)
        have spells := PartsSpell.key blankBefore spelled blankAfter ih
        rwa [← whole, ← keysOfParts_cons rest nothing] at spells

theorem comma_not_mem_of_blank {text : List Char} (blank : text.all isBlank = true) :
    ',' ∉ text := by
  intro member
  have isBlank := List.all_eq_true.1 blank ',' member
  exact absurd isBlank (by decide)

section Plain

variable {part : List Char} {parts : List (List Char)} {key : SortKey} {keys : List SortKey}

theorem PartSpells.ne_nil (spells : PartSpells part key) (plain : IsPlain key.field.toList) :
    part ≠ [] := by
  cases spells with
  | minus field => exact List.cons_ne_nil _ _
  | plus field => exact List.cons_ne_nil _ _
  | plain field => exact plain.nonempty

theorem PartSpells.comma_not_mem (spells : PartSpells part key)
    (plain : IsPlain key.field.toList) : ',' ∉ part := by
  cases spells with
  | minus field => simpa using plain.no_comma
  | plus field => simpa using plain.no_comma
  | plain field => exact plain.no_comma

theorem PartSpells.isTrimmed (spells : PartSpells part key)
    (plain : IsPlain key.field.toList) : isTrimmed part = true := by
  cases spells with
  | minus field => exact isTrimmed_cons rfl plain.trimmed
  | plus field => exact isTrimmed_cons rfl plain.trimmed
  | plain field => exact plain.trimmed

theorem PartSpells.sortKeyOfPart_eq (spells : PartSpells part key)
    (plain : IsPlain key.field.toList) : sortKeyOfPart part = key := by
  cases spells with
  | minus field => simp [sortKeyOfPart]
  | plus field => simp [sortKeyOfPart]
  | plain field =>
      -- A sign at the beginning of the field would be taken for the sign of the key.
      unfold sortKeyOfPart
      split
      next rest eq => exact absurd (by rw [eq]; rfl) plain.no_minus
      next rest eq => exact absurd (by rw [eq]; rfl) plain.no_plus
      next => rw [String.ofList_toList]

theorem PartsSpell.comma_not_mem (spells : PartsSpell parts keys)
    (plain : ∀ key ∈ keys, IsPlain key.field.toList) : ∀ part ∈ parts, ',' ∉ part := by
  induction spells with
  | nil => simp
  | blank blank _ ih =>
      exact List.forall_mem_cons.2 ⟨comma_not_mem_of_blank blank, ih plain⟩
  | key blankBefore spells blankAfter _ ih =>
      obtain ⟨plainKey, plainKeys⟩ := List.forall_mem_cons.1 plain
      refine List.forall_mem_cons.2 ⟨?_, ih plainKeys⟩
      simp [comma_not_mem_of_blank blankBefore, spells.comma_not_mem plainKey,
        comma_not_mem_of_blank blankAfter]

theorem PartsSpell.keysOfParts_eq (spells : PartsSpell parts keys)
    (plain : ∀ key ∈ keys, IsPlain key.field.toList) : keysOfParts parts = keys := by
  induction spells with
  | nil => rfl
  | blank blank _ ih => rw [keysOfParts_cons_of_blank _ blank, ih plain]
  | key blankBefore spells blankAfter _ ih =>
      obtain ⟨plainKey, plainKeys⟩ := List.forall_mem_cons.1 plain
      have trimmed := trimBlanks_surrounded (spells.isTrimmed plainKey) blankBefore blankAfter
      rw [keysOfParts_cons _ (trimmed.symm ▸ spells.ne_nil plainKey), trimmed,
        spells.sortKeyOfPart_eq plainKey, ih plainKeys]

end Plain

/-- A text is read as sort keys with plain fields exactly if it spells them: every spelling of the
keys gives them back, all of them and in order, and no other text does. -/
theorem sortKeysOfText_eq_iff {keys : List SortKey}
    (plain : ∀ key ∈ keys, IsPlain key.field.toList) (text : String) :
    sortKeysOfText text = keys ↔ TextSpells text keys := by
  constructor
  · rintro rfl
    exact ⟨splitAt ',' text.toList, (joinWith_splitAt ',' _).symm, partsSpell_keysOfParts _⟩
  · rintro ⟨parts, joined, spells⟩
    rw [← keysOfParts_splitAt, joined]
    cases parts with
    -- No part at all is joined to the same text as an empty one.
    | nil => exact spells.keysOfParts_eq plain
    | cons part rest =>
        rw [splitAt_joinWith (List.cons_ne_nil _ _) (spells.comma_not_mem plain),
          spells.keysOfParts_eq plain]

/-- Blanks of several kinds, parts without a key, and signs and blanks inside of fields. A text with
the keys in another order spells other ones. -/
theorem sortKeysOfText_eq_iff_of_blanks :
    let keys : List SortKey := [⟨"age", .desc⟩, ⟨"größe-x +1", .asc⟩, ⟨"first name", .asc⟩]
    (∀ key ∈ keys, IsPlain key.field.toList) ∧
      sortKeysOfText " -age,, \u3000,+größe-x +1\t,first name," = keys ∧
      ¬TextSpells "first name,-age,größe-x +1" keys := by
  intro keys
  have plain : ∀ key ∈ keys, IsPlain key.field.toList := by decide +kernel
  refine ⟨plain, (sortKeysOfText_eq_iff plain _).2 ?_, fun spells => ?_⟩
  · refine ⟨[[' '] ++ '-' :: "age".toList ++ [], [], [' ', '\u3000'],
      [] ++ '+' :: "größe-x +1".toList ++ ['\t'], [] ++ "first name".toList ++ [], []],
      by decide +kernel, ?_⟩
    refine .key rfl (.minus "age") rfl (.blank rfl (.blank rfl ?_))
    exact .key rfl (.plus _) rfl (.key rfl (.plain _) rfl (.blank rfl .nil))
  · exact absurd ((sortKeysOfText_eq_iff plain _).2 spells) (by decide +kernel)

end DocTable.CommandLine
