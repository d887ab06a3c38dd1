import DocTable.Sql.Command

/-!
# Sessions

An operation on a collection is a dialogue with an engine and a source of ids. A session describes
the dialogue as data: what is asked for next, and how to go on with each answer. An engine that
rejects a call ends the session with its error, so no session can go on after a failed call.
-/

namespace DocTable

/-- A dialogue that ends with a result or an error. -/
inductive Session (α : Type) where
  /-- The end. -/
  | done (result : Except Error α)
  /-- A call that is answered with rows. -/
  | query (call : Sql.Call) (next : List Sql.Row → Session α)
  /-- A call that is answered with the number of rows it affected. -/
  | execute (call : Sql.Call) (next : Nat → Session α)
  /-- A request for an id that has not been used. -/
  | freshId (next : String → Session α)

/-- What carries out calls, with its state. A call that fails may have changed the state. -/
structure Engine (σ : Type) where
  /-- Answers a call with rows. -/
  query : Sql.Call → σ → Except Error (List Sql.Row) × σ
  /-- Answers a call with the number of affected rows. -/
  execute : Sql.Call → σ → Except Error Nat × σ

/-- A source of ids, with its state. -/
abbrev IdSource (ι : Type) : Type := ι → String × ι

namespace Session

variable {α β : Type}

/-- A session followed by another one, unless the first ends with an error. -/
def bind : Session α → (α → Session β) → Session β
  | .done (.ok value), rest => rest value
  | .done (.error error), _ => .done (.error error)
  | .query call next, rest => .query call fun rows => (next rows).bind rest
  | .execute call next, rest => .execute call fun affected => (next affected).bind rest
  | .freshId next, rest => .freshId fun id => (next id).bind rest

instance : Monad Session where
  pure value := .done (.ok value)
  bind := bind

instance : MonadLift (Except Error) Session := ⟨.done⟩

/-- The session that ends with an error. -/
def fail (error : Error) : Session α := .done (.error error)

/-- Runs a session with an engine and a source of ids. -/
def run {σ ι : Type} (engine : Engine σ) (ids : IdSource ι) :
    Session α → σ → ι → Except Error α × σ × ι
  | .done result, state, source => (result, state, source)
  | .query call next, state, source =>
    match engine.query call state with
    | (.ok rows, state) => run engine ids (next rows) state source
    | (.error error, state) => (.error error, state, source)
  | .execute call next, state, source =>
    match engine.execute call state with
    | (.ok affected, state) => run engine ids (next affected) state source
    | (.error error, state) => (.error error, state, source)
  | .freshId next, state, source =>
    let (id, source) := ids source
    run engine ids (next id) state source

@[simp] theorem pure_bind (value : α) (rest : α → Session β) :
    (pure value : Session α) >>= rest = rest value := rfl

@[simp] theorem bind_pure (session : Session α) : session >>= pure = session := by
  induction session with
  | done result => cases result <;> rfl
  | query call next ih => exact congrArg (Session.query call) (funext ih)
  | execute call next ih => exact congrArg (Session.execute call) (funext ih)
  | freshId next ih => exact congrArg Session.freshId (funext ih)

/-- Running a session and then the rest is running them one after the other. -/
theorem run_bind {σ ι : Type} (engine : Engine σ) (ids : IdSource ι) (session : Session α)
    (rest : α → Session β) (state : σ) (source : ι) :
    (session >>= rest).run engine ids state source =
      match session.run engine ids state source with
      | (.ok value, state, source) => (rest value).run engine ids state source
      | (.error error, state, source) => (.error error, state, source) := by
  change (session.bind rest).run engine ids state source = _
  induction session generalizing state source with
  | done result => cases result <;> rfl
  | query call next ih =>
    simp only [bind, run]
    split
    · exact ih _ _ _
    · rfl
  | execute call next ih =>
    simp only [bind, run]
    split
    · exact ih _ _ _
    · rfl
  | freshId next ih => exact ih _ _ _

end Session

/-- The calls that reached an engine, the last one first, beside its state. -/
structure Recorded (σ : Type) where
  calls : List Sql.Call
  state : σ

/-- An engine that remembers the calls it is given. -/
def Engine.recording {σ : Type} (engine : Engine σ) : Engine (Recorded σ) where
  query call recorded :=
    let (answer, state) := engine.query call recorded.state
    (answer, ⟨call :: recorded.calls, state⟩)
  execute call recorded :=
    let (answer, state) := engine.execute call recorded.state
    (answer, ⟨call :: recorded.calls, state⟩)

end DocTable
