import DocTable.Proofs.Cursor.Sorted
import DocTable.Proofs.Sql.OrderClause
import DocTable.Proofs.Sql.ValueOrder

/-!
# Rows in the order of a clause

SQLite orders rows by the values that it finds at the sort paths of their documents
and then by their numbers, which are the places of the rows among those that were
inserted. So there is one arrangement of the rows in the order of a clause. A sorted
scan yields all lists of some documents in this arrangement if and only if any two
of their values at the sort paths sort alike.
-/

namespace DocTable.Sql.Sqlite

/-- What the engine finds at a path of a document. -/
def extractedAt (path : FieldPath) (document : Document) : Value :=
  extracted ((document.lookup? path).getD .null)

/-- What a row, a document with its number, is ordered by. -/
def OrderBasis.value? (row : Document × Nat) : OrderBasis → Option Value
  | .rowid => some (.integer row.2)
  | .expression (.call "json_extract" [.column column, .constant path]) =>
      if column = documentColumn then some (extracted ((valueAt row.1 path).getD .null)) else none
  | .expression _ => none

/-- The order of two rows. -/
def compareRows? (left right : Document × Nat) : RowOrder → Option Ordering
  | [] => some .eq
  | (basis, direction) :: rest => do
      let own := order (← basis.value? left) (← basis.value? right)
      return (direction.apply own).then (← compareRows? left right rest)

/-- An arrangement of rows that the engine may return: none comes behind a row that it is less
than. -/
structure InOrder (terms : RowOrder) (rows arranged : List (Document × Nat)) : Prop where
  perm : arranged.Perm rows
  ascending : arranged.Pairwise fun left right =>
    ∃ found, compareRows? left right terms = some found ∧ found ≠ .gt

/-- The order of the engine on documents under sort terms. -/
def compareDocuments (terms : List SortTerm) (left right : Document) : Ordering :=
  match terms with
  | [] => .eq
  | (path, direction) :: rest =>
      (direction.apply (order (extractedAt path left) (extractedAt path right))).then
        (compareDocuments rest left right)

theorem compareRows?_rowOrder (terms : List SortTerm) (left right : Document × Nat) :
    compareRows? left right (rowOrder terms) =
      some ((compareDocuments terms left.1 right.1).then (Ord.compare left.2 right.2)) := by
  induction terms with
  | nil =>
      have numbers : order (.integer left.2) (.integer right.2) = Ord.compare left.2 right.2 := by
        rw [order_of_rational? rfl rfl, ← cmp_eq_compare, Int.cast_natCast, Int.cast_natCast]
        exact Nat.strictMono_cast.cmp_map_eq left.2 right.2
      change some ((order (.integer left.2) (.integer right.2)).then .eq) = _
      rw [numbers, Ordering.then_eq]
      rfl
  | cons term rest ih =>
      rcases term with ⟨path, direction⟩
      have value (row : Document × Nat) :
          (OrderBasis.expression (JsonDialect.sqlite.extracted path)).value? row =
            some (extractedAt path row.1) := by
        change (if documentColumn = documentColumn then some (extracted
          ((valueAt row.1 (JsonDialect.pathNotation path)).getD .null)) else none) = _
        rw [if_pos rfl, valueAt_pathNotation]
        rfl
      change (do
        let own := order (← OrderBasis.value? left _) (← OrderBasis.value? right _)
        return (direction.apply own).then (← compareRows? left right (rowOrder rest))) = _
      rw [value, value, ih, compareDocuments, Ordering.then_assoc]
      rfl

theorem compareDocuments_swap (terms : List SortTerm) (left right : Document) :
    compareDocuments terms right left = (compareDocuments terms left right).swap := by
  induction terms with
  | nil => rfl
  | cons term rest ih =>
      rcases term with ⟨path, direction⟩
      rw [compareDocuments, compareDocuments, Ordering.swap_then, ih,
        order_swap (extractedAt path left)]
      cases direction <;> rfl

theorem chains_compareDocuments (terms : List SortTerm) (first second third : Document) :
    Chains (compareDocuments terms first second) (compareDocuments terms second third)
      (compareDocuments terms first third) := by
  induction terms with
  | nil => exact Chains.ofOrd 0 0 0
  | cons term rest ih =>
      rcases term with ⟨path, direction⟩
      exact (Chains.apply order_swap direction (chains_order _ _ _)
        (chains_order _ _ _)).andThen fun _ _ => ih

/-- Of two rows that are not the same one, the row that may stand in front precedes the other. -/
theorem precedes_iff {terms : List SortTerm} {left right : Document × Nat}
    (distinct : left.2 ≠ right.2) :
    Precedes (compareDocuments terms) left right ↔
      ∃ found, compareRows? left right (rowOrder terms) = some found ∧ found ≠ .gt := by
  have numbers : Ord.compare left.2 right.2 ≠ .gt ↔ left.2 < right.2 := by
    rw [compare_le_iff_le, Nat.le_iff_lt_or_eq, or_iff_left distinct]
  rw [compareRows?_rowOrder, Precedes, ← numbers]
  simp only [Option.some.injEq, exists_eq_left', ne_eq, Ordering.then_eq_gt, not_or, not_and]

/-- The arrangements in the order of a clause are the sortings of the documents. -/
theorem inOrder_iff_isSorting {terms : List SortTerm} {stored : List Document}
    {arranged : List (Document × Nat)} :
    InOrder (rowOrder terms) stored.zipIdx arranged ↔
      IsSorting (compareDocuments terms) stored arranged := by
  have distinct (perm : arranged.Perm stored.zipIdx) :
      arranged.Pairwise fun left right => left.2 ≠ right.2 :=
    perm.symm.pairwise ((zipIdx_increasing stored).imp Nat.ne_of_lt) Ne.symm
  constructor
  · rintro ⟨perm, ascending⟩
    refine ⟨perm, ((distinct perm).and ascending).imp ?_⟩
    rintro left right ⟨apart, ascends⟩
    exact (precedes_iff apart).2 ascends
  · rintro ⟨perm, ascending⟩
    refine ⟨perm, ((distinct perm).and ascending).imp ?_⟩
    rintro left right ⟨apart, precedes⟩
    exact (precedes_iff apart).1 precedes

theorem exists_inOrder (terms : List SortTerm) (stored : List Document) :
    ∃ arranged, (∀ other, InOrder (rowOrder terms) stored.zipIdx other ↔ other = arranged) ∧
      arranged.map Prod.fst = stableSort (compareDocuments terms) stored := by
  rcases @DocTable.exists_sorting Document (compareDocuments terms) (fun _ => True)
    (compareDocuments_swap terms)
    (fun first second third _ _ _ => chains_compareDocuments terms first second third) stored
    (fun _ _ => trivial) with ⟨arranged, isSorting, found⟩
  refine ⟨arranged, fun other => ?_, found⟩
  rw [inOrder_iff_isSorting]
  constructor
  · intro otherSorting
    exact otherSorting.unique (compareDocuments_swap terms) isSorting
  · rintro rfl
    exact isSorting

/-- Sort keys arrange documents alike: the engine reads the text of their clause as an order, the
rows have one arrangement in it, and a scan of the rows with these keys answers with the documents
in that arrangement. Keys that are refused are refused with the same error. -/
def ArrangedAlike (table : String) (keys : List SortKey) (stored : List Document) : Prop :=
  match (Dialect.json .sqlite).orderBy keys,
      FindPlan.build (.json .sqlite) table (.predicate fun _ => true) { sort := some keys } with
  | .ok clause, .ok plan =>
      ∃ terms arranged, readOrder? (clause.text (.json .sqlite)) = some terms ∧
        (∀ other, InOrder terms stored.zipIdx other ↔ other = arranged) ∧
        ∀ steps, (Cursor.ofRows plan (stored.map fun document => [.text document.text])).answer
          steps = (arranged.map fun row => .ok row.1)[steps]?
  | .error refused, .error unplanned => refused = unplanned
  | _, _ => False

theorem mapM_ofValue_text {stored : List Document}
    (storable : ∀ document ∈ stored, Document.decode document.text = .ok document) :
    (stored.map fun document => Value.text document.text).mapM StoredRow.ofValue =
      .ok (stored.map fun document => ⟨document.text, document⟩) := by
  induction stored with
  | nil => rfl
  | cons document rest ih =>
      rcases List.forall_mem_cons.1 storable with ⟨first, later⟩
      rw [List.map_cons, List.mapM_cons, ih later, StoredRow.ofValue, first]
      rfl

/-- The answers of a sorted scan of stored documents. -/
theorem answer_sortedScan {terms : List SortTerm} {stored : List Document} (call : Call)
    (sorts : terms ≠ [])
    (storable : ∀ document ∈ stored, Document.decode document.text = .ok document)
    (steps : Nat) :
    (Cursor.ofRows ⟨call, some ⟨.function fun _ => true, terms, 0, none⟩, none⟩
        (stored.map fun document => [.text document.text])).answer steps =
      ((stableSort (Document.compareBy terms) stored).map .ok)[steps]? := by
  let rows : List StoredRow := stored.map fun document => ⟨document.text, document⟩
  have all :
      rows.filter (fun row => (RowTest.function fun _ => true).accepts row.document) = rows :=
    List.filter_eq_self.2 fun _ _ => rfl
  have drained : (Cursor.ofRows ⟨call, some ⟨.function fun _ => true, terms, 0, none⟩, none⟩
      (stored.map fun document => [.text document.text])).drainRows =
      (stableSort (StoredRow.compareBy terms) rows).map .ok := by
    rw [Cursor.drainRows_sorted rfl sorts, Cursor.ofRows, List.map_map,
      Scan.passing_of_read (by exact mapM_ofValue_text storable), all]
    rfl
  have documents : (stableSort (StoredRow.compareBy terms) rows).map StoredRow.document =
      stableSort (Document.compareBy terms) stored := by
    have own : rows.map StoredRow.document = stored := by
      rw [List.map_map]
      exact List.map_id stored
    exact (map_stableSort StoredRow.document _ rows).trans (congrArg _ own)
  rw [Cursor.answer_eq, Cursor.drain, drained, ← documents, List.map_map, List.map_map]
  rfl

/-- Sort keys that are read arrange documents alike if and only if sorting by either order is the
same. -/
theorem arrangedAlike_iff {table : String} {keys : List SortKey} {terms : List SortTerm}
    {stored : List Document} (sorts : keys ≠ []) (sorted : sortTerms keys = .ok terms)
    (storable : ∀ document ∈ stored, Document.decode document.text = .ok document) :
    ArrangedAlike table keys stored ↔
      stableSort (compareDocuments terms) stored =
        stableSort (Document.compareBy terms) stored := by
  have termsNonempty : terms ≠ [] := mt (sortTerms_eq_nil_iff sorted).1 sorts
  have written :
      (Dialect.json .sqlite).orderBy keys = (Dialect.json .sqlite).orderClause terms := by
    rw [Dialect.orderBy, sorted, if_neg (by rwa [List.isEmpty_iff])]
    rfl
  have planned : ∃ call, FindPlan.build (.json .sqlite) table (.predicate fun _ => true)
      { sort := some keys } =
        .ok ⟨call, some ⟨.function fun _ => true, terms, 0, none⟩, none⟩ :=
    ⟨_, FindPlan.build_eq_ok_iff.2 ⟨terms, _, rfl, sorted, rfl, rfl, rfl⟩⟩
  rcases planned with ⟨call, planned⟩
  rcases exists_inOrder terms stored with ⟨arranged, only, documents⟩
  have clause := orderClause_eq terms
  rw [ArrangedAlike, written, planned, clause]
  change (∃ _ _, _) ↔ _
  rw [readOrder?_orderClause clause]
  simp only [answer_sortedScan call termsNonempty storable]
  have items : (arranged.map fun row => (.ok row.1 : Except Error Document)) =
      (stableSort (compareDocuments terms) stored).map .ok := by
    rw [← documents, List.map_map]
    rfl
  constructor
  · rintro ⟨_, found, ⟨⟩, own, answers⟩
    cases (only found).1 ((own found).2 rfl)
    have alike := (List.ext_getElem? answers).trans items
    exact (List.map_injective_iff.2 (fun _ _ => Except.ok.inj) alike).symm
  · intro same
    refine ⟨_, arranged, rfl, only, fun steps => ?_⟩
    rw [items, same]

theorem arrangedAlike_of_unread {keys : List SortKey} {error : Error}
    (unread : sortTerms keys = .error error) (table : String) (stored : List Document) :
    ArrangedAlike table keys stored := by
  have sorts : keys ≠ [] := by
    rintro rfl
    cases unread
  have refused : (Dialect.json .sqlite).orderBy keys = .error error := by
    rw [Dialect.orderBy, unread, if_neg (by rwa [List.isEmpty_iff])]
    rfl
  have unplanned : FindPlan.build (.json .sqlite) table (.predicate fun _ => true)
      { sort := some keys } = .error error := by
    change (sortTerms keys >>= _) = _
    rw [unread]
    rfl
  rw [ArrangedAlike, refused, unplanned]

/-! ## Values that sort alike -/

theorem compareDocuments_eq {terms : List SortTerm} {left right : Document}
    (alike : ∀ term ∈ terms, SortsAlike ((left.lookup? term.1).getD .null)
      ((right.lookup? term.1).getD .null)) :
    compareDocuments terms left right = Document.compareBy terms left right := by
  induction terms with
  | nil => rfl
  | cons term rest ih =>
      rcases term with ⟨path, direction⟩
      rcases List.forall_mem_cons.1 alike with ⟨first, later⟩
      rw [compareDocuments, Document.compareBy, ih later, extractedAt, extractedAt,
        (sortsAlike_iff _ _).1 first]
      rfl

/-- The engine and a sorted scan arrange all lists of some documents alike, by whatever keys for
some fields they are sorted, if and only if any two of their values at these fields sort alike. -/
theorem arranges_alike_iff {fields : String → Prop} {inside : Document → Prop} (table : String)
    (storable : ∀ document, inside document → Document.decode document.text = .ok document) :
    (∀ keys : List SortKey, keys ≠ [] → (∀ key ∈ keys, fields key.field) →
        ∀ stored : List Document, (∀ document ∈ stored, inside document) →
          ArrangedAlike table keys stored) ↔
      ∀ field path, fields field → FieldPath.parse field = .ok path →
        ∀ left right, inside left → inside right →
          SortsAlike ((left.lookup? path).getD .null) ((right.lookup? path).getD .null) := by
  constructor
  · intro arranged field path isField parsed left right inLeft inRight
    have sorted : sortTerms [⟨field, .asc⟩] = .ok [(path, .asc)] := by
      rw [sortTerms, List.mapM_cons, parsed]
      rfl
    have pair {left right : Document} (inLeft : inside left) (inRight : inside right) :
        stableSort (compareDocuments [(path, .asc)]) [left, right] =
          stableSort (Document.compareBy [(path, .asc)]) [left, right] := by
      have members : ∀ document ∈ [left, right], inside document := by
        simp [inLeft, inRight]
      apply (arrangedAlike_iff (List.cons_ne_nil _ _) sorted
        fun document member => storable document (members document member)).1
      exact arranged [⟨field, .asc⟩] (List.cons_ne_nil _ _) (by simpa using isField) _ members
    have same := eq_of_stableSort_pair (compareDocuments_swap _) (Document.compareBy_swap _)
      (pair inLeft inRight) (pair inRight inLeft)
    rw [compareDocuments, compareDocuments, Document.compareBy, Document.compareBy,
      Ordering.then_eq, Ordering.then_eq] at same
    exact (sortsAlike_iff _ _).2 same
  · intro alike keys sorts fieldsOf stored members
    have storedStorable : ∀ document ∈ stored, Document.decode document.text = .ok document :=
      fun document member => storable document (members document member)
    cases sorted : sortTerms keys with
    | error error => exact arrangedAlike_of_unread sorted table stored
    | ok terms =>
        refine (arrangedAlike_iff sorts sorted storedStorable).2 (stableSort_congr ?_)
        intro left inLeft right inRight
        apply compareDocuments_eq
        intro term member
        rcases exists_of_sortTerms sorted member with ⟨key, inKeys, parsed⟩
        exact alike key.field term.1 (fieldsOf key inKeys) parsed left right
          (members left inLeft) (members right inRight)

/-- The engine orders the rows of stored documents as a sorted scan does if any two values at a
path that is sorted by sort alike. -/
theorem arranges_alike (table : String) {keys : List SortKey} {stored : List Document}
    (sorts : keys ≠ [])
    (storable : ∀ document ∈ stored, Document.decode document.text = .ok document)
    (alike : ∀ key ∈ keys, ∀ path, FieldPath.parse key.field = .ok path →
      ∀ left ∈ stored, ∀ right ∈ stored,
        SortsAlike ((left.lookup? path).getD .null) ((right.lookup? path).getD .null)) :
    ArrangedAlike table keys stored := by
  have alikeAt : ∀ field path, (∃ key ∈ keys, key.field = field) →
      FieldPath.parse field = .ok path → ∀ left right, left ∈ stored → right ∈ stored →
        SortsAlike ((left.lookup? path).getD .null) ((right.lookup? path).getD .null) := by
    rintro _ path ⟨key, inKeys, rfl⟩ parsed left right inLeft inRight
    exact alike key inKeys path parsed left inLeft right inRight
  exact (arranges_alike_iff table storable).2 alikeAt keys sorts
    (fun key inKeys => ⟨key, inKeys, rfl⟩) stored fun _ member => member

/-- Documents without a value, with a number, with a string and with an array that comes behind
it, by their values in descending order. -/
theorem arranges_alike_of_kinds :
    ArrangedAlike "t" [⟨"k", .desc⟩] [⟨[("k", .number (.integer 2 (by decide)))]⟩, ⟨[]⟩,
      ⟨[("k", .array [.null])]⟩, ⟨[("k", .string "A")]⟩, ⟨[]⟩] := by
  let kinds : List Document := [⟨[("k", .number (.integer 2 (by decide)))]⟩, ⟨[]⟩,
    ⟨[("k", .array [.null])]⟩, ⟨[("k", .string "A")]⟩, ⟨[]⟩]
  have storable : ∀ document ∈ kinds, Document.decode document.text = .ok document := by
    simp only [kinds, List.forall_mem_cons]
    exact ⟨rfl, rfl, rfl, rfl, rfl, List.forall_mem_nil _⟩
  have alike : ∀ left ∈ kinds, ∀ right ∈ kinds,
      SortsAlike ((left.lookup? (FieldPath.ofName "k" (by decide))).getD .null)
        ((right.lookup? (FieldPath.ofName "k" (by decide))).getD .null) := by
    decide +kernel
  apply arranges_alike "t" (List.cons_ne_nil _ _) storable
  intro key inKeys path parsed
  cases List.mem_singleton.1 inKeys
  cases parsed.symm.trans (rfl : FieldPath.parse "k" = .ok (FieldPath.ofName "k" (by decide)))
  exact alike

/-- A truth value comes in front of a string as a number for the engine, and behind it in a
scan. -/
theorem arranges_differently_truth_text :
    (∀ document ∈ ([⟨[("k", .bool true)]⟩, ⟨[("k", .string "a")]⟩] : List Document),
        Document.decode document.text = .ok document) ∧
      ¬ArrangedAlike "t" [⟨"k", .asc⟩] [⟨[("k", .bool true)]⟩, ⟨[("k", .string "a")]⟩] := by
  have storable : ∀ document ∈ ([⟨[("k", .bool true)]⟩, ⟨[("k", .string "a")]⟩] : List Document),
      Document.decode document.text = .ok document := by
    simp only [List.forall_mem_cons]
    exact ⟨rfl, rfl, List.forall_mem_nil _⟩
  have sorted : sortTerms [⟨"k", .asc⟩] = .ok [(FieldPath.ofName "k" (by decide), .asc)] := rfl
  refine ⟨storable, ?_⟩
  rw [arrangedAlike_iff (List.cons_ne_nil _ _) sorted storable]
  intro same
  have texts := congrArg (List.map Document.text) same
  revert texts
  decide +kernel

end DocTable.Sql.Sqlite
