import DocTable.Session

/-!
# Transcripts

The transcript of a session lists the calls that reach the engine, each with
its answer. A call that fails is the last one, and had it been answered, the
calls before it and the call itself would have been the same.

A session is orderly if it first makes up its mind about everything that can be
malformed, then asks at most one query, and from then on only writes. Orderly
sessions are put together from orderly parts.
-/

namespace DocTable

/-- A call with its answer. -/
inductive Exchange where
  | query (call : Sql.Call) (answer : Except Error (List Sql.Row))
  | execute (call : Sql.Call) (answer : Except Error Nat)

namespace Exchange

/-- The call without its answer. -/
def call : Exchange → Sql.Call
  | .query call _ | .execute call _ => call

/-- Whether the call is answered with rows. -/
def isQuery : Exchange → Bool
  | .query .. => true
  | .execute .. => false

/-- The error with which the call was rejected, if it was. -/
def failure? : Exchange → Option Error
  | .query _ (.error error) | .execute _ (.error error) => some error
  | .query _ (.ok _) | .execute _ (.ok _) => none

/-- Whether the answer is the one that an engine gives in some state. -/
def IsGivenBy {σ : Type} (engine : Engine σ) : Exchange → Prop
  | .query call answer => ∃ state, (engine.query call state).1 = answer
  | .execute call answer => ∃ state, (engine.execute call state).1 = answer

end Exchange

/-- An engine that keeps to its interface: a call that it rejects fails with an
execution error. -/
def Engine.Conforms {σ : Type} (engine : Engine σ) : Prop :=
  ∀ exchange : Exchange, exchange.IsGivenBy engine →
    ∀ error, exchange.failure? = some error → ∃ cause, error = .execution cause

namespace Session

variable {α β σ ι : Type}

/-- The calls of a session with their answers, in their order. -/
def transcript (engine : Engine σ) (ids : IdSource ι) : Session α → σ → ι → List Exchange
  | .done _, _, _ => []
  | .query call next, state, source =>
      match engine.query call state with
      | (.ok rows, state) =>
          .query call (.ok rows) :: transcript engine ids (next rows) state source
      | (.error error, _) => [.query call (.error error)]
  | .execute call next, state, source =>
      match engine.execute call state with
      | (.ok affected, state) =>
          .execute call (.ok affected) :: transcript engine ids (next affected) state source
      | (.error error, _) => [.execute call (.error error)]
  | .freshId next, state, source =>
      let (id, source) := ids source
      transcript engine ids (next id) state source

variable {engine : Engine σ} {ids : IdSource ι} {call : Sql.Call} {state after : σ} {source : ι}
variable {error : Error}

section

variable {next : List Sql.Row → Session α} {rows : List Sql.Row}

theorem run_query_ok (answered : engine.query call state = (.ok rows, after)) :
    (query call next).run engine ids state source = (next rows).run engine ids after source := by
  rw [run, answered]

theorem run_query_error (answered : engine.query call state = (.error error, after)) :
    (query call next).run engine ids state source = (.error error, after, source) := by
  rw [run, answered]

theorem transcript_query_ok (answered : engine.query call state = (.ok rows, after)) :
    (query call next).transcript engine ids state source =
      .query call (.ok rows) :: (next rows).transcript engine ids after source := by
  rw [transcript, answered]

theorem transcript_query_error (answered : engine.query call state = (.error error, after)) :
    (query call next).transcript engine ids state source = [.query call (.error error)] := by
  rw [transcript, answered]

end

section

variable {next : Nat → Session α} {affected : Nat}

theorem run_execute_ok (answered : engine.execute call state = (.ok affected, after)) :
    (execute call next).run engine ids state source =
      (next affected).run engine ids after source := by
  rw [run, answered]

theorem run_execute_error (answered : engine.execute call state = (.error error, after)) :
    (execute call next).run engine ids state source = (.error error, after, source) := by
  rw [run, answered]

theorem transcript_execute_ok (answered : engine.execute call state = (.ok affected, after)) :
    (execute call next).transcript engine ids state source =
      .execute call (.ok affected) :: (next affected).transcript engine ids after source := by
  rw [transcript, answered]

theorem transcript_execute_error (answered : engine.execute call state = (.error error, after)) :
    (execute call next).transcript engine ids state source = [.execute call (.error error)] := by
  rw [transcript, answered]

end

/-- The calls of a sequence are those of its first part and, unless it fails,
those of the second. -/
theorem transcript_bind (session : Session α) (rest : α → Session β) (state : σ) (source : ι) :
    (session >>= rest).transcript engine ids state source =
      session.transcript engine ids state source ++
        match session.run engine ids state source with
        | (.ok value, state, source) => (rest value).transcript engine ids state source
        | (.error _, _, _) => [] := by
  change (session.bind rest).transcript engine ids state source = _
  induction session generalizing state source with
  | done result => cases result <;> rfl
  | query call next ih =>
      rcases answered : engine.query call state with ⟨answer, after⟩
      cases answer with
      | error error =>
          rw [bind, transcript_query_error answered, transcript_query_error answered,
            run_query_error answered]
          rfl
      | ok rows =>
          rw [bind, transcript_query_ok answered, transcript_query_ok answered,
            run_query_ok answered, ih, List.cons_append]
  | execute call next ih =>
      rcases answered : engine.execute call state with ⟨answer, after⟩
      cases answer with
      | error error =>
          rw [bind, transcript_execute_error answered, transcript_execute_error answered,
            run_execute_error answered]
          rfl
      | ok affected =>
          rw [bind, transcript_execute_ok answered, transcript_execute_ok answered,
            run_execute_ok answered, ih, List.cons_append]
  | freshId next ih => exact ih _ state _

/-- A recording engine is given the calls of the transcript. -/
theorem run_recording (session : Session α) (calls : List Sql.Call) (state : σ) (source : ι) :
    (session.run engine.recording ids ⟨calls, state⟩ source).1 =
        (session.run engine ids state source).1 ∧
      (session.run engine.recording ids ⟨calls, state⟩ source).2.1.calls =
        ((session.transcript engine ids state source).map Exchange.call).reverse ++ calls := by
  induction session generalizing calls state source with
  | done result => exact ⟨rfl, rfl⟩
  | query call next ih =>
      rcases answered : engine.query call state with ⟨answer, after⟩
      cases answer with
      | error error =>
          have recorded : engine.recording.query call ⟨calls, state⟩ =
              (.error error, ⟨call :: calls, after⟩) := by simp [Engine.recording, answered]
          rw [run_query_error recorded, run_query_error answered, transcript_query_error answered]
          exact ⟨rfl, rfl⟩
      | ok rows =>
          have recorded : engine.recording.query call ⟨calls, state⟩ =
              (.ok rows, ⟨call :: calls, after⟩) := by simp [Engine.recording, answered]
          rw [run_query_ok recorded, run_query_ok answered, transcript_query_ok answered]
          simpa [Exchange.call] using ih rows (call :: calls) after source
  | execute call next ih =>
      rcases answered : engine.execute call state with ⟨answer, after⟩
      cases answer with
      | error error =>
          have recorded : engine.recording.execute call ⟨calls, state⟩ =
              (.error error, ⟨call :: calls, after⟩) := by simp [Engine.recording, answered]
          rw [run_execute_error recorded, run_execute_error answered,
            transcript_execute_error answered]
          exact ⟨rfl, rfl⟩
      | ok affected =>
          have recorded : engine.recording.execute call ⟨calls, state⟩ =
              (.ok affected, ⟨call :: calls, after⟩) := by simp [Engine.recording, answered]
          rw [run_execute_ok recorded, run_execute_ok answered, transcript_execute_ok answered]
          simpa [Exchange.call] using ih affected (call :: calls) after source
  | freshId next ih => exact ih _ calls state _

theorem isGivenBy_of_mem_transcript {session : Session α} {exchange : Exchange}
    (member : exchange ∈ session.transcript engine ids state source) :
    exchange.IsGivenBy engine := by
  induction session generalizing state source with
  | done result => cases member
  | query call next ih =>
      rcases answered : engine.query call state with ⟨answer, after⟩
      have given : (Exchange.query call answer).IsGivenBy engine := ⟨state, by rw [answered]⟩
      cases answer with
      | error error =>
          rw [transcript_query_error answered, List.mem_singleton] at member
          exact member ▸ given
      | ok rows =>
          rw [transcript_query_ok answered] at member
          rcases List.mem_cons.1 member with rfl | later
          · exact given
          · exact ih rows later
  | execute call next ih =>
      rcases answered : engine.execute call state with ⟨answer, after⟩
      have given : (Exchange.execute call answer).IsGivenBy engine := ⟨state, by rw [answered]⟩
      cases answer with
      | error error =>
          rw [transcript_execute_error answered, List.mem_singleton] at member
          exact member ▸ given
      | ok affected =>
          rw [transcript_execute_ok answered] at member
          rcases List.mem_cons.1 member with rfl | later
          · exact given
          · exact ih affected later
  | freshId next ih => exact ih _ member

/-- A call that fails is the last one, and its error is the result. -/
theorem ends_with_failure {session : Session α} {before later : List Exchange}
    {exchange : Exchange}
    (split : session.transcript engine ids state source = before ++ exchange :: later)
    (failure : exchange.failure? = some error) :
    later = [] ∧ (session.run engine ids state source).1 = .error error := by
  induction session generalizing state source before with
  | done result => cases before <;> cases split
  | query call next ih =>
      rcases answered : engine.query call state with ⟨answer, after⟩
      cases answer with
      | error own =>
          rw [transcript_query_error answered, List.singleton_eq_append_iff] at split
          rcases split with ⟨-, only⟩ | ⟨-, none⟩
          · cases only
            cases failure
            exact ⟨rfl, by rw [run_query_error answered]⟩
          · cases none
      | ok rows =>
          rw [transcript_query_ok answered] at split
          rw [run_query_ok answered]
          cases before with
          | nil =>
              cases split
              cases failure
          | cons first rest => exact ih rows (List.cons.inj split).2
  | execute call next ih =>
      rcases answered : engine.execute call state with ⟨answer, after⟩
      cases answer with
      | error own =>
          rw [transcript_execute_error answered, List.singleton_eq_append_iff] at split
          rcases split with ⟨-, only⟩ | ⟨-, none⟩
          · cases only
            cases failure
            exact ⟨rfl, by rw [run_execute_error answered]⟩
          · cases none
      | ok affected =>
          rw [transcript_execute_ok answered] at split
          rw [run_execute_ok answered]
          cases before with
          | nil =>
              cases split
              cases failure
          | cons first rest => exact ih affected (List.cons.inj split).2
  | freshId next ih => exact ih _ split

end Session

/-- An engine that answers as another one does, but rejects the call with the
given number, which counts from zero. -/
def Engine.failing {σ : Type} (engine : Engine σ) (error : Error) : Engine (Nat × σ) where
  query call
    | (0, state) => (.error error, 0, state)
    | (left + 1, state) =>
        let (answer, state) := engine.query call state
        (answer, left, state)
  execute call
    | (0, state) => (.error error, 0, state)
    | (left + 1, state) =>
        let (answer, state) := engine.execute call state
        (answer, left, state)

namespace Session

variable {α σ ι : Type} {engine : Engine σ} {ids : IdSource ι}

/-- Up to a call that is rejected the calls are the same, and the rejection is
the result. A call that is never made cannot be rejected. -/
theorem run_failing (session : Session α) (error : Error) (index : Nat) (state : σ) (source : ι) :
    (session.transcript (engine.failing error) ids (index, state) source).map Exchange.call =
        ((session.transcript engine ids state source).map Exchange.call).take (index + 1) ∧
      (session.run (engine.failing error) ids (index, state) source).1 =
        if index < (session.transcript engine ids state source).length then .error error
        else (session.run engine ids state source).1 := by
  induction session generalizing index state source with
  | done result => simp [transcript, run]
  | query call next ih =>
      cases index with
      | zero =>
          have rejected : (engine.failing error).query call (0, state) =
              (.error error, 0, state) := rfl
          rw [transcript_query_error rejected, run_query_error rejected, transcript]
          split <;> simp [Exchange.call]
      | succ left =>
          rcases answered : engine.query call state with ⟨answer, after⟩
          have passed : (engine.failing error).query call (left + 1, state) =
              (answer, left, after) := by simp [Engine.failing, answered]
          cases answer with
          | error own =>
              rw [transcript_query_error passed, run_query_error passed,
                transcript_query_error answered, run_query_error answered]
              simp
          | ok rows =>
              rw [transcript_query_ok passed, run_query_ok passed, transcript_query_ok answered,
                run_query_ok answered]
              rcases ih rows left after source with ⟨calls, result⟩
              simp [calls, result, Exchange.call]
  | execute call next ih =>
      cases index with
      | zero =>
          have rejected : (engine.failing error).execute call (0, state) =
              (.error error, 0, state) := rfl
          rw [transcript_execute_error rejected, run_execute_error rejected, transcript]
          split <;> simp [Exchange.call]
      | succ left =>
          rcases answered : engine.execute call state with ⟨answer, after⟩
          have passed : (engine.failing error).execute call (left + 1, state) =
              (answer, left, after) := by simp [Engine.failing, answered]
          cases answer with
          | error own =>
              rw [transcript_execute_error passed, run_execute_error passed,
                transcript_execute_error answered, run_execute_error answered]
              simp
          | ok affected =>
              rw [transcript_execute_ok passed, run_execute_ok passed,
                transcript_execute_ok answered, run_execute_ok answered]
              rcases ih affected left after source with ⟨calls, result⟩
              simp [calls, result, Exchange.call]
  | freshId next ih => exact ih _ index state _

/-! ## Orderly sessions -/

/-- A session that makes no call. -/
def Silent : Session α → Prop
  | .done _ => True
  | .freshId next => ∀ id, Silent (next id)
  | .query .. | .execute .. => False

/-- A session that only writes, and never ends by finding a request malformed. -/
def Writes : Session α → Prop
  | .done result => ∀ cause, result ≠ .error (.compilation cause)
  | .execute _ next => ∀ affected, Writes (next affected)
  | .query .. | .freshId _ => False

/-- A session that finds out first whether a request is malformed, then asks one
query at most and only writes from then on. -/
def Orderly : Session α → Prop
  | .done _ => True
  | .query _ next => ∀ rows, Writes (next rows)
  | .execute _ next => ∀ affected, Writes (next affected)
  | .freshId next => ∀ id, Orderly (next id)

variable {β : Type}

theorem Writes.pure (value : α) : (Pure.pure value : Session α).Writes := by
  intro cause impossible
  cases impossible

theorem Writes.fail {error : Error} (sound : ∀ cause, error ≠ .compilation cause) :
    (Session.fail error : Session α).Writes := by
  intro cause isCompilation
  cases isCompilation
  exact sound cause rfl

theorem Writes.orderly {session : Session α} (writes : session.Writes) : session.Orderly := by
  cases session with
  | done result => trivial
  | execute call next => exact writes
  | query call next => exact writes.elim
  | freshId next => exact writes.elim

theorem Writes.bind {session : Session α} {rest : α → Session β} (first : session.Writes)
    (second : ∀ value, (rest value).Writes) : (session >>= rest).Writes := by
  change (session.bind rest).Writes
  induction session with
  | done result =>
      cases result with
      | ok value => exact second value
      | error error =>
          intro cause isCompilation
          cases isCompilation
          exact first cause rfl
  | execute call next ih => exact fun affected => ih affected (first affected)
  | query call next => exact first.elim
  | freshId next => exact first.elim

theorem Writes.lift {computation : Except Error α}
    (sound : ∀ cause, computation ≠ .error (.compilation cause)) :
    (liftM computation : Session α).Writes :=
  sound

theorem Silent.bind {session : Session α} {rest : α → Session β} (first : session.Silent)
    (second : ∀ value, (rest value).Silent) : (session >>= rest).Silent := by
  change (session.bind rest).Silent
  induction session with
  | done result =>
      cases result with
      | ok value => exact second value
      | error error => trivial
  | freshId next ih => exact fun id => ih id (first id)
  | query call next => exact first.elim
  | execute call next => exact first.elim

theorem Silent.lift (computation : Except Error α) : (liftM computation : Session α).Silent :=
  trivial

theorem Silent.transcript_eq_nil {session : Session α} (silent : session.Silent) (state : σ)
    (source : ι) : session.transcript engine ids state source = [] := by
  induction session generalizing source with
  | done result => rfl
  | freshId next ih => exact ih _ (silent _) _
  | query call next => exact silent.elim
  | execute call next => exact silent.elim

/-- A session that makes no call is followed by an orderly one. -/
theorem Orderly.after {session : Session α} {rest : α → Session β} (first : session.Silent)
    (second : ∀ value, (rest value).Orderly) : (session >>= rest).Orderly := by
  change (session.bind rest).Orderly
  induction session with
  | done result =>
      cases result with
      | ok value => exact second value
      | error error => trivial
  | freshId next ih => exact fun id => ih id (first id)
  | query call next => exact first.elim
  | execute call next => exact first.elim

/-- An orderly session is followed by one that only writes. -/
theorem Orderly.bind {session : Session α} {rest : α → Session β} (first : session.Orderly)
    (second : ∀ value, (rest value).Writes) : (session >>= rest).Orderly := by
  change (session.bind rest).Orderly
  induction session with
  | done result =>
      cases result with
      | ok value => exact (second value).orderly
      | error error => trivial
  | query call next => exact fun rows => (first rows).bind second
  | execute call next => exact fun affected => (first affected).bind second
  | freshId next ih => exact fun id => ih id (first id)

theorem Writes.transcript_executes {session : Session α} (writes : session.Writes) (state : σ)
    (source : ι) :
    ∀ exchange ∈ session.transcript engine ids state source, exchange.isQuery = false := by
  induction session generalizing state with
  | done result => simp [transcript]
  | execute call next ih =>
      rw [transcript]
      split
      · next affected after answered =>
          exact List.forall_mem_cons.2 ⟨rfl, ih affected (writes affected) after⟩
      · simp [Exchange.isQuery]
  | query call next => exact writes.elim
  | freshId next => exact writes.elim

/-- The transcript of an orderly session: at most one query and then commands. -/
theorem Orderly.transcript_split {session : Session α} (orderly : session.Orderly) (state : σ)
    (source : ι) :
    ∃ asked written, session.transcript engine ids state source = asked ++ written ∧
      asked.length ≤ 1 ∧ (∀ exchange ∈ asked, exchange.isQuery = true) ∧
        ∀ exchange ∈ written, exchange.isQuery = false := by
  induction session generalizing source with
  | done result => exact ⟨[], [], rfl, by simp⟩
  | query call next ih =>
      rw [transcript]
      split
      · next rows after answered =>
          exact ⟨[.query call (.ok rows)], _, List.singleton_append.symm, by simp,
            by simp [Exchange.isQuery], (orderly rows).transcript_executes after source⟩
      · next error after answered =>
          exact ⟨[.query call (.error error)], [], rfl, by simp [Exchange.isQuery]⟩
  | execute call next ih =>
      have writes : (Session.execute call next).Writes := orderly
      exact ⟨[], _, (List.nil_append _).symm, by simp, by simp,
        writes.transcript_executes state source⟩
  | freshId next ih => exact ih _ (orderly _) _

/-- A session that only writes finds nothing malformed by itself: the engine has
said so. -/
theorem Writes.failure_of_compilation {session : Session α} {state : σ} {source : ι}
    {cause : CompilationError} (writes : session.Writes)
    (malformed : (session.run engine ids state source).1 = .error (.compilation cause)) :
    ∃ before exchange, session.transcript engine ids state source = before ++ [exchange] ∧
      exchange.failure? = some (.compilation cause) := by
  induction session generalizing state source with
  | done result => exact absurd malformed (writes cause)
  | execute call next ih =>
      rcases answered : engine.execute call state with ⟨answer, after⟩
      cases answer with
      | error error =>
          rw [run_execute_error answered] at malformed
          cases malformed
          exact ⟨[], _, transcript_execute_error answered, rfl⟩
      | ok affected =>
          rw [run_execute_ok answered] at malformed
          rcases ih affected (writes affected) malformed with ⟨before, exchange, split, failure⟩
          exact ⟨_ :: before, exchange, by rw [transcript_execute_ok answered, split]; rfl, failure⟩
  | query call next => exact writes.elim
  | freshId next => exact writes.elim

/-- An orderly session that ends with a malformed request has made no call,
unless the engine has said so itself. -/
theorem Orderly.failure_of_compilation {session : Session α} {state : σ} {source : ι}
    {cause : CompilationError} (orderly : session.Orderly)
    (malformed : (session.run engine ids state source).1 = .error (.compilation cause)) :
    session.transcript engine ids state source = [] ∨
      ∃ before exchange, session.transcript engine ids state source = before ++ [exchange] ∧
        exchange.failure? = some (.compilation cause) := by
  induction session generalizing source with
  | done result => exact .inl rfl
  | query call next ih =>
      right
      rcases answered : engine.query call state with ⟨answer, after⟩
      cases answer with
      | error error =>
          rw [run_query_error answered] at malformed
          cases malformed
          exact ⟨[], _, transcript_query_error answered, rfl⟩
      | ok rows =>
          rw [run_query_ok answered] at malformed
          rcases (orderly rows).failure_of_compilation malformed with
            ⟨before, exchange, split, failure⟩
          exact ⟨_ :: before, exchange, by rw [transcript_query_ok answered, split]; rfl, failure⟩
  | execute call next ih =>
      have writes : (Session.execute call next).Writes := orderly
      exact .inr (writes.failure_of_compilation malformed)
  | freshId next ih => exact ih _ (orderly _) malformed

end Session

end DocTable
