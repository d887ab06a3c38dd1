import DocTable.FieldPath
import DocTable.Proofs.Verdict

/-!
# Which texts are paths

A text is a path if it does not begin with a dollar sign, has at most the
greatest number of parts between its dots, and every part can be a segment.
The segments are then the parts.
-/

namespace DocTable.FieldPath

/-- The parts of a text between its dots. -/
def partsOf (text : String) : List (List Char) := splitAt '.' text.toList

/-- Whether a text is a path. -/
def isPath (text : String) : Bool :=
  decide (text.toList.head? ≠ some '$') && decide ((partsOf text).length ≤ maxDepth) &&
    (partsOf text).all fun part => !part.isEmpty && part.all isQuotable

/-- The parts become segments if none of them is faulty. -/
theorem ofParts_verdict (text : String) (parts : List (List Char)) (nonempty : parts ≠ []) :
    Verdict (fun path => path.segments = parts.map String.ofList)
      (match sound : parts.find? isFaulty with
        | some [] => throw (PathError.emptySegment text : Error)
        | some _ => throw (PathError.unquotable text : Error)
        | none => pure (ofParts parts nonempty sound))
      (parts.all fun part => !part.isEmpty && part.all isQuotable) := by
  have sound_eq : (parts.all fun part => !part.isEmpty && part.all isQuotable) =
      (parts.find? isFaulty).isNone := by
    rw [Bool.eq_iff_iff]
    simp [isFaulty]
  split
  next found => exact (Verdict.rejected _).of_eq (by simp [sound_eq, found])
  next found => exact (Verdict.rejected _).of_eq (by simp [sound_eq, found])
  next found =>
      refine (Verdict.pure ?_).of_eq ?_
      · rfl
      · simp [sound_eq, found]

/-- A text is read as a path exactly if it is one, and its parts are the segments. -/
theorem parse_verdict (text : String) :
    Verdict (fun path => path.segments = (partsOf text).map String.ofList) (parse text)
      (isPath text) := by
  have parts := ofParts_verdict text (partsOf text) (splitAt_ne_nil _ _)
  refine (Verdict.ite fun _ => Verdict.ite fun _ => Verdict.ite fun _ => parts).of_eq ?_
  -- The check for an empty text is one of several that refuse it.
  cases isEmpty : text.isEmpty with
  | true =>
      rw [String.isEmpty_iff] at isEmpty
      subst isEmpty
      rfl
  | false =>
      have parts_eq : splitAt '.' text.toList = partsOf text := rfl
      rw [Bool.eq_iff_iff]
      simp [isPath, parts_eq, and_assoc]

theorem joinWith_eq_intercalate (separator : List Char) (parts : List (List Char)) :
    joinWith separator parts = separator.intercalate parts := by
  induction parts with
  | nil => rfl
  | cons part rest ih =>
      cases rest with
      | nil => rw [joinWith, List.intercalate_singleton]
      | cons next others => rw [joinWith, ih, List.intercalate_cons_cons]

/-- The segments of a path, with dots between them, are the text that it was read from. -/
theorem intercalate_segments {text : String} {path : FieldPath} (read : parse text = .ok path) :
    ".".intercalate path.segments = text := by
  have characters : path.segments.map String.toList = partsOf text := by
    rw [(parse_verdict text).of_ok read, List.map_map]
    exact List.map_id'' (fun _ => String.toList_ofList) _
  rw [← String.toList_inj, String.toList_intercalate, characters]
  exact (joinWith_eq_intercalate ['.'] _).symm.trans (joinWith_splitAt '.' _)

end DocTable.FieldPath
