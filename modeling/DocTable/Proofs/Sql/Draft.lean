import DocTable.Sql.Command
import DocTable.Sql.Draft

/-!
# Drafts that keep the order of binding

A writer binds fragments and adds their texts to a draft, with other text around them. A text that
is bound and not yet added waits in a queue. If the texts leave the queue in the order in which they
came, the placeholders in the draft count as those of one fragment do, and the finished draft is
the statement of that fragment. Out of this order it need not be: a placeholder without a number
would stand for the value of another one.
-/

namespace DocTable.Sql

namespace Draft

/-- A draft of which the first fragment has been written. The texts of the fragments in the queue
have been bound and wait to be added. -/
inductive Written (dialect : Dialect) : Fragment → List Fragment → Draft → List String → Prop
  | start : Written dialect [] [] { dialect } []
  /-- Adds the text of a piece that binds nothing. -/
  | push {done : Fragment} {queue : List Fragment} {draft : Draft} {waiting : List String}
      {piece : Piece} (unbound : piece.parameter? = none) :
      Written dialect done queue draft waiting →
      Written dialect (done ++ [piece]) queue (draft.push (String.ofList (piece.chars dialect 0)))
        waiting
  /-- Binds a fragment. -/
  | bind {done : Fragment} {queue : List Fragment} {draft : Draft} {waiting : List String}
      (fragment : Fragment) :
      Written dialect done queue draft waiting →
      Written dialect done (queue ++ [fragment]) (draft.bind fragment).2
        (waiting ++ [(draft.bind fragment).1])
  /-- Adds the text that has been waiting longest. -/
  | place {done first : Fragment} {queue : List Fragment} {draft : Draft} {text : String}
      {waiting : List String} :
      Written dialect done (first :: queue) draft (text :: waiting) →
      Written dialect (done ++ first) queue (draft.push text) waiting

/-- The texts of fragments, in front of which as many parameters stand as `bound` says. -/
def textsFrom (dialect : Dialect) (bound : Nat) : List Fragment → List String
  | [] => []
  | fragment :: rest => String.ofList (fragment.chars dialect bound) ::
      textsFrom dialect (bound + fragment.parameters.length) rest

theorem textsFrom_append (dialect : Dialect) (bound : Nat) (first second : List Fragment) :
    textsFrom dialect bound (first ++ second) = textsFrom dialect bound first ++
      textsFrom dialect (bound + (Fragment.parameters first.flatten).length) second := by
  induction first generalizing bound with
  | nil => rfl
  | cons fragment rest ih =>
      rw [List.cons_append, textsFrom, ih, textsFrom, List.flatten_cons,
        Fragment.parameters_append, List.length_append, Nat.add_assoc, List.cons_append]

/-- What a draft and the waiting texts are at any time: the numbers of the placeholders go on from
what has been written through the queue. -/
structure Keeps (dialect : Dialect) (done : Fragment) (queue : List Fragment) (draft : Draft)
    (waiting : List String) : Prop where
  dialect_eq : draft.dialect = dialect
  sql_eq : draft.sql = done.text dialect
  parameters_eq : draft.parameters = Fragment.parameters (done ++ queue.flatten)
  waiting_eq : waiting = textsFrom dialect done.parameters.length queue

variable {dialect : Dialect} {done : Fragment} {queue : List Fragment} {draft : Draft}
  {waiting : List String}

theorem keeps_start (dialect : Dialect) : Keeps dialect [] [] { dialect } [] := by
  constructor
  · rfl
  · rfl
  · rfl
  · rfl

/-- The text of a fragment goes on with that of another one behind it. -/
theorem push_text (sql_eq : draft.sql = done.text dialect) (next : Fragment) :
    (draft.push (String.ofList (next.chars dialect done.parameters.length))).sql =
      Fragment.text dialect (done ++ next) := by
  rw [push, sql_eq, Fragment.text, Fragment.text, Fragment.chars_append, Nat.zero_add,
    String.ofList_append]

theorem Keeps.push {piece : Piece} (unbound : piece.parameter? = none)
    (keeps : Keeps dialect done queue draft waiting) :
    Keeps dialect (done ++ [piece]) queue (draft.push (String.ofList (piece.chars dialect 0)))
      waiting := by
  have alone : Fragment.parameters [piece] = [] := by
    rw [Fragment.parameters, List.filterMap_cons_none unbound, List.filterMap_nil]
  have unnumbered (bound : Nat) : Fragment.chars dialect bound [piece] = piece.chars dialect 0 := by
    rw [Fragment.chars, Fragment.chars, List.append_nil]
    cases piece with
    | parameter role value => cases unbound
    | _ => rfl
  constructor
  case dialect_eq => exact keeps.dialect_eq
  case sql_eq =>
    rw [← unnumbered done.parameters.length]
    exact push_text keeps.sql_eq [piece]
  case parameters_eq =>
    rw [List.append_assoc, Fragment.parameters_append, Fragment.parameters_append, alone,
      List.nil_append, ← Fragment.parameters_append]
    exact keeps.parameters_eq
  case waiting_eq =>
    rw [Fragment.parameters_append, alone, List.append_nil]
    exact keeps.waiting_eq

theorem Keeps.bind (fragment : Fragment) (keeps : Keeps dialect done queue draft waiting) :
    Keeps dialect done (queue ++ [fragment]) (draft.bind fragment).2
      (waiting ++ [(draft.bind fragment).1]) := by
  constructor
  case dialect_eq => exact keeps.dialect_eq
  case sql_eq => exact keeps.sql_eq
  case parameters_eq =>
    rw [Draft.bind, keeps.parameters_eq, ← Fragment.parameters_append, List.flatten_concat,
      List.append_assoc]
  case waiting_eq =>
    rw [textsFrom_append, keeps.waiting_eq, Draft.bind, keeps.dialect_eq, keeps.parameters_eq,
      Fragment.parameters_append, List.length_append]
    rfl

theorem Keeps.place {first : Fragment} {text : String}
    (keeps : Keeps dialect done (first :: queue) draft (text :: waiting)) :
    Keeps dialect (done ++ first) queue (draft.push text) waiting := by
  rcases List.cons.inj keeps.waiting_eq with ⟨rfl, waiting_eq⟩
  constructor
  case dialect_eq => exact keeps.dialect_eq
  case sql_eq => exact push_text keeps.sql_eq first
  case parameters_eq =>
    rw [List.append_assoc, ← List.flatten_cons]
    exact keeps.parameters_eq
  case waiting_eq =>
    rw [Fragment.parameters_append, List.length_append]
    exact waiting_eq

theorem Written.keeps (written : Written dialect done queue draft waiting) :
    Keeps dialect done queue draft waiting := by
  induction written with
  | start => exact keeps_start dialect
  | push unbound _ ih => exact ih.push unbound
  | bind fragment _ ih => exact ih.bind fragment
  | place _ ih => exact ih.place

namespace Written

/-- A value, a literal and a document are bound as fragments of one parameter. -/
theorem bindValue (value : Value) (written : Written dialect done queue draft waiting) :
    Written dialect done (queue ++ [[.parameter .plain value]]) (draft.bindValue value).2
      (waiting ++ [(draft.bindValue value).1]) :=
  written.bind _

theorem bindLiteral (literal : Scalar) (written : Written dialect done queue draft waiting) :
    Written dialect done (queue ++ [[dialect.literal literal]]) (draft.bindLiteral literal).2
      (waiting ++ [(draft.bindLiteral literal).1]) := by
  rw [Draft.bindLiteral, written.keeps.dialect_eq]
  exact written.bind _

theorem bindDocument (text : String) (written : Written dialect done queue draft waiting) :
    Written dialect done (queue ++ [[.parameter .document (.text text)]])
      (draft.bindDocument text).2 (waiting ++ [(draft.bindDocument text).1]) :=
  written.bind _

/-- A condition is bound as the fragment of its predicate, or not at all. -/
theorem bindCondition {condition : Condition} {text : String} {next : Draft}
    (written : Written dialect done queue draft waiting)
    (bound : draft.bindCondition condition = .ok (text, next)) :
    ∃ fragment, condition.toPredicate.fragment dialect = .ok fragment ∧
      Written dialect done (queue ++ [fragment]) next (waiting ++ [text]) := by
  rw [Draft.bindCondition, written.keeps.dialect_eq] at bound
  cases printed : condition.toPredicate.fragment dialect with
  | error error =>
      rw [printed] at bound
      cases bound
  | ok fragment =>
      rw [printed] at bound
      cases bound
      exact ⟨fragment, rfl, written.bind fragment⟩

/-- When nothing waits any more, the finished draft is the statement of what has been written. -/
theorem finish_eq (written : Written dialect done [] draft waiting) :
    draft.finish = done.statement dialect := by
  rcases written.keeps with ⟨-, sql_eq, parameters_eq, -⟩
  rw [List.flatten_nil, List.append_nil] at parameters_eq
  rw [finish, sql_eq, parameters_eq, Fragment.statement]

/-- So a command may be written by hand: a draft of its fragment is its statement. -/
theorem statement_eq {table : String} {command : Command}
    (written : Written dialect done [] draft waiting)
    (isText : command.fragment dialect table = .ok done) :
    command.statement dialect table = .ok draft.finish := by
  rw [Command.statement, isText, written.finish_eq]
  rfl

end Written

end Draft

end DocTable.Sql
