import DocTable.Json.Reader
import DocTable.Proofs.Json.Scanning

/-!
# Printed values read again

What comes back when the text of a value is read: its numbers are those that
their texts stand for, a name that an object repeats keeps its place and takes
the last value, and nothing comes back if the value is nested too deeply.
-/

namespace DocTable.Json

mutual

/-- The value with the repeated names of its objects merged, if at most as many
containers are nested in it as there is room for. -/
def settle? (room : Nat) : Json → Option Json
  | .null => some .null
  | .bool value => some (.bool value)
  | .number value => some (.number value)
  | .string value => some (.string value)
  | .array elements =>
      if room = 0 then none else (settleElements? (room - 1) elements).map .array
  | .object ⟨entries⟩ =>
      if room = 0 then none else (settleEntries? (room - 1) ∅ entries).map .object

/-- The elements of an array, each on its own. -/
def settleElements? (room : Nat) : List Json → Option (List Json)
  | [] => some []
  | element :: rest => do return (← settle? room element) :: (← settleElements? room rest)

/-- The fields with the entries put into them. -/
def settleEntries? (room : Nat) (before : Fields Json) : List (String × Json) → Option (Fields Json)
  | [] => some before
  | (key, value) :: rest => do settleEntries? room (before.insert key (← settle? room value)) rest

end

namespace Reader

/-- Reads tokens one after the other. -/
def run? (limit : Nat) (reader : Reader) (tokens : List Token) : Option Reader :=
  tokens.foldlM (step? limit) reader

variable {limit : Nat}

theorem run?_cons {reader next : Reader} {token : Token}
    (step : reader.step? limit token = some next) (rest : List Token) :
    reader.run? limit (token :: rest) = next.run? limit rest := by
  rw [run?, List.foldlM_cons, step]
  rfl

theorem run?_full {stack : List Frame} {token : Token} (full : ¬stack.length < limit)
    (opens : token = .openArray ∨ token = .openObject) (rest : List Token) :
    (Reader.expectValue stack).run? limit (token :: rest) = none := by
  have refused : (Reader.expectValue stack).step? limit token = none := by
    rcases opens with rfl | rfl <;> exact if_neg full
  rw [run?, List.foldlM_cons, refused]
  rfl

theorem run?_expectElement (stack : List Frame) (value : Json) (rest : List Token) :
    (Reader.expectElement stack).run? limit (tokens value ++ rest) =
      (Reader.expectValue (.element [] :: stack)).run? limit (tokens value ++ rest) := by
  have same (token : Token) (others : List Token)
      (step : (Reader.expectElement stack).step? limit token =
        (Reader.expectValue (.element [] :: stack)).step? limit token) :
      (Reader.expectElement stack).run? limit (token :: others) =
        (Reader.expectValue (.element [] :: stack)).run? limit (token :: others) := by
    rw [run?, run?, List.foldlM_cons, List.foldlM_cons, step]
  match value with
  | .null | .bool _ | .number _ | .string _ => exact same _ _ rfl
  | .array [] | .array (_ :: _) => exact same _ _ rfl
  | .object ⟨[]⟩ | .object ⟨(_, _) :: _⟩ => exact same _ _ rfl

mutual

/-- The tokens of a value are read as the value that settles in the room that is left. -/
theorem run?_tokens (stack : List Frame) (value : Json) (rest : List Token) :
    (Reader.expectValue stack).run? limit (tokens value ++ rest) =
      (settle? (limit - stack.length) value).bind fun value =>
        (Reader.complete value stack).run? limit rest := by
  match value with
  | .null | .bool _ | .number _ | .string _ => exact run?_cons rfl rest
  | .array [] =>
      by_cases room : stack.length < limit
      · have opened : (Reader.expectValue stack).step? limit .openArray =
            some (.expectElement stack) := if_pos room
        have fits : ¬limit - stack.length = 0 := by omega
        rw [tokens, List.cons_append, run?_cons opened, List.cons_append, run?_cons rfl, settle?,
          if_neg fits]
        rfl
      · have full : limit - stack.length = 0 := by omega
        rw [tokens, List.cons_append, run?_full room (by simp), settle?, if_pos full]
        rfl
  | .array (first :: others) =>
      by_cases room : stack.length < limit
      · have opened : (Reader.expectValue stack).step? limit .openArray =
            some (.expectElement stack) := if_pos room
        have fits : ¬limit - stack.length = 0 := by omega
        rw [tokens, List.cons_append, run?_cons opened, List.append_assoc, run?_expectElement,
          run?_tokens (.element [] :: stack) first, settle?, if_neg fits, settleElements?,
          List.length_cons, ← Nat.sub_sub]
        cases settle? (limit - stack.length - 1) first with
        | none => rfl
        | some settled =>
            rw [Option.bind_some, run?_moreElementTokens]
            cases settleElements? (limit - stack.length - 1) others <;> simp
      · have full : limit - stack.length = 0 := by omega
        rw [tokens, List.cons_append, run?_full room (by simp), settle?, if_pos full]
        rfl
  | .object ⟨[]⟩ =>
      by_cases room : stack.length < limit
      · have opened : (Reader.expectValue stack).step? limit .openObject =
            some (.expectFirstKey stack) := if_pos room
        have fits : ¬limit - stack.length = 0 := by omega
        rw [tokens, List.cons_append, run?_cons opened, List.cons_append, run?_cons rfl, settle?,
          if_neg fits]
        rfl
      · have full : limit - stack.length = 0 := by omega
        rw [tokens, List.cons_append, run?_full room (by simp), settle?, if_pos full]
        rfl
  | .object ⟨(key, value) :: others⟩ =>
      by_cases room : stack.length < limit
      · have opened : (Reader.expectValue stack).step? limit .openObject =
            some (.expectFirstKey stack) := if_pos room
        have fits : ¬limit - stack.length = 0 := by omega
        have named : (Reader.expectFirstKey stack).step? limit (.string key) =
            some (.expectColon ∅ key stack) := rfl
        have colon : (Reader.expectColon ∅ key stack).step? limit .colon =
            some (.expectValue (.member ∅ key :: stack)) := rfl
        rw [tokens, List.cons_append, run?_cons opened, List.cons_append, run?_cons named,
          List.cons_append, run?_cons colon, List.append_assoc,
          run?_tokens (.member ∅ key :: stack) value, settle?, if_neg fits, settleEntries?,
          List.length_cons, ← Nat.sub_sub]
        cases settle? (limit - stack.length - 1) value with
        | none => rfl
        | some settled =>
            rw [Option.bind_some, run?_moreEntryTokens, Option.bind_map]
            rfl
      · have full : limit - stack.length = 0 := by omega
        rw [tokens, List.cons_append, run?_full room (by simp), settle?, if_pos full]
        rfl

theorem run?_moreElementTokens (stack : List Frame) (before : List Json) (value : Json)
    (elements : List Json) (rest : List Token) :
    (Reader.complete value (.element before :: stack)).run? limit
        (moreElementTokens elements ++ rest) =
      (settleElements? (limit - stack.length - 1) elements).bind fun settled =>
        (Reader.complete (.array (before.reverse ++ value :: settled)) stack).run? limit rest := by
  match elements with
  | [] =>
      have closed : (Reader.complete value (.element before :: stack)).step? limit .closeArray =
          some (.complete (.array (value :: before).reverse) stack) := rfl
      rw [moreElementTokens, List.singleton_append, run?_cons closed, settleElements?,
        Option.bind_some, List.reverse_cons]
  | element :: others =>
      have next : (Reader.complete value (.element before :: stack)).step? limit .comma =
          some (.expectValue (.element (value :: before) :: stack)) := rfl
      rw [moreElementTokens, List.cons_append, run?_cons next, List.append_assoc,
        run?_tokens (.element (value :: before) :: stack) element, settleElements?,
        List.length_cons, ← Nat.sub_sub]
      cases settle? (limit - stack.length - 1) element with
      | none => rfl
      | some settled =>
          rw [Option.bind_some, run?_moreElementTokens]
          cases settleElements? (limit - stack.length - 1) others <;> simp

theorem run?_moreEntryTokens (stack : List Frame) (before : Fields Json) (key : String)
    (value : Json) (entries : List (String × Json)) (rest : List Token) :
    (Reader.complete value (.member before key :: stack)).run? limit
        (moreEntryTokens entries ++ rest) =
      (settleEntries? (limit - stack.length - 1) (before.insert key value) entries).bind
        fun fields => (Reader.complete (.object fields) stack).run? limit rest := by
  match entries with
  | [] =>
      have closed : (Reader.complete value (.member before key :: stack)).step? limit .closeObject =
          some (.complete (.object (before.insert key value)) stack) := rfl
      rw [moreEntryTokens, List.singleton_append, run?_cons closed, settleEntries?,
        Option.bind_some]
  | (name, other) :: others =>
      have next : (Reader.complete value (.member before key :: stack)).step? limit .comma =
          some (.expectKey (before.insert key value) stack) := rfl
      have named : (Reader.expectKey (before.insert key value) stack).step? limit (.string name) =
          some (.expectColon (before.insert key value) name stack) := rfl
      have colon : (Reader.expectColon (before.insert key value) name stack).step? limit .colon =
          some (.expectValue (.member (before.insert key value) name :: stack)) := rfl
      rw [moreEntryTokens, List.cons_append, run?_cons next, List.cons_append, run?_cons named,
        List.cons_append, run?_cons colon, List.append_assoc,
        run?_tokens (.member (before.insert key value) name :: stack) other, settleEntries?,
        List.length_cons, ← Nat.sub_sub]
      cases settle? (limit - stack.length - 1) other with
      | none => rfl
      | some settled =>
          rw [Option.bind_some, run?_moreEntryTokens]
          rfl

end

end Reader

theorem read?_text (value : Json) :
    read? value.text = (renumbered? value).bind (settle? depthLimit) := by
  rw [read?, readWithin?, Token.scan?_text]
  cases renumbered? value with
  | none => rfl
  | some renumbered =>
      have run := @Reader.run?_tokens depthLimit [] renumbered []
      rw [List.append_nil, List.length_nil, Nat.sub_zero, Reader.run?] at run
      simp only [Option.map_some, Option.bind_eq_bind, Option.bind_some, run]
      cases settle? depthLimit renumbered <;> rfl

end DocTable.Json
