import DocTable.Proofs.Scan

/-!
# Cursors step by step

A cursor is stepped from outside, one document at a time, and goes on answering
behind its end. Its answers are the items that draining it collects, and nothing
behind them; a cursor that is closed answers nothing any more.
-/

namespace DocTable

namespace Cursor

/-- The cursor behind some steps. -/
def after (cursor : Cursor) : Nat → Cursor
  | 0 => cursor
  | steps + 1 => cursor.advance.2.after steps

/-- What the next step hands out behind some others. -/
def answer (cursor : Cursor) (steps : Nat) : Option (Item Document) :=
  (cursor.after steps).advance.1

theorem answer_of_closed {cursor : Cursor} (closed : cursor.closed = true) (steps : Nat) :
    cursor.answer steps = none := by
  have ended : cursor.advance = (none, cursor) := by
    rw [advance, nextRow, if_pos closed]
    rfl
  induction steps with
  | zero => rw [answer, after, ended]
  | succ steps ih =>
      rw [answer, after, ended]
      exact ih

@[simp] theorem closed_close (cursor : Cursor) : cursor.close.closed = true := by
  rw [close]
  split
  · assumption
  · rfl

@[simp] theorem projection_close (cursor : Cursor) :
    cursor.close.projection = cursor.projection := by
  rw [close]
  split <;> rfl

theorem closed_of_nextRow {cursor next : Cursor} (step : cursor.nextRow = (none, next)) :
    next.closed = true := by
  rw [nextRow] at step
  split at step
  · next closed =>
      cases step
      exact closed
  · simp only [Prod.mk.injEq] at step
    rw [← step.2, step.1]
    exact closed_close _

theorem projection_nextRow (cursor : Cursor) : cursor.nextRow.2.projection = cursor.projection := by
  rcases cursor with ⟨rows, scan, projection, closed⟩
  rw [nextRow]
  split
  · rfl
  · cases scan with
    | none => cases rows <;> simp
    | some scan =>
        dsimp only
        split <;> simp

theorem present_eq {cursor other : Cursor} (same : other.projection = cursor.projection) :
    other.present = cursor.present := by
  funext row
  rw [present, present, same]

theorem answer_eq (cursor : Cursor) (steps : Nat) : cursor.answer steps = cursor.drain[steps]? := by
  induction steps generalizing cursor with
  | zero =>
      rcases step : cursor.nextRow with ⟨item, next⟩
      rw [answer, after, advance, step, drain, List.getElem?_map]
      cases item with
      | none => rw [drainRows_of_none step]; rfl
      | some item => rw [drainRows_of_some step]; rfl
  | succ steps ih =>
      rcases step : cursor.nextRow with ⟨item, next⟩
      have behind : cursor.advance.2 = next := by rw [advance, step]
      have same : next.present = cursor.present := by
        apply present_eq
        rw [← cursor.projection_nextRow, step]
      rw [answer, after, behind]
      cases item with
      | none =>
          rw [drain, drainRows_of_none step]
          exact answer_of_closed (closed_of_nextRow step) steps
      | some item =>
          rw [drain, drainRows_of_some step, List.map_cons, List.getElem?_cons_succ, ← same]
          exact ih next

/-- The first item of a cursor as the result of a search, if there is one. -/
def first (cursor : Cursor) : Except Error (Option Document) := (cursor.answer 0).mapM id

theorem drainRows_of_pop {scan : Scan} (sorts : scan.plan.sort ≠ []) {sorted : List StoredRow}
    {values rest : List Sql.Value} (projection : Option Projection)
    (popped : scan.next values = scan.pop rest sorted) :
    drainRows ⟨values, some scan, projection, false⟩ = sorted.map .ok := by
  induction sorted generalizing scan values rest with
  | nil =>
      rcases nextRow_scan projection popped with ⟨after, ended, -⟩
      rw [drainRows_of_none ended, List.map_nil]
  | cons first others ih =>
      have sortsStill : { scan with sorted := some others }.plan.sort ≠ [] := sorts
      have buffered : { scan with sorted := some others }.next rest =
          { scan with sorted := some others }.pop rest others := by
        rw [Scan.next, if_neg (by rwa [List.isEmpty_iff])]
      rcases nextRow_scan projection popped with ⟨after, taken, later⟩
      rw [drainRows_of_some taken, later rfl, List.map_cons]
      exact congrArg _ (ih sortsStill buffered)

section

variable {plan : FindPlan} {scan : ScanPlan} {rows : List Sql.Row}
variable (scanned : plan.scan = some scan)

include scanned

theorem ofRows_scan :
    ofRows plan rows =
      ⟨(ofRows plan rows).rows, some (Scan.start scan), plan.projection, false⟩ := by
  rw [ofRows, scanned]
  rfl

/-- A sorted scan hands out the error of the first row that cannot be read, or
all rows that pass the test as they are arranged. -/
theorem drainRows_sorted (sorts : scan.sort ≠ []) :
    (ofRows plan rows).drainRows =
      match Scan.passing scan.test (ofRows plan rows).rows with
      | .error (error, _) => [.error error]
      | .ok matched => (Scan.arrange scan matched).map .ok := by
  have unread : ¬(Scan.start scan).plan.sort.isEmpty := by rwa [List.isEmpty_iff]
  rw [ofRows_scan scanned]
  cases read : Scan.passing scan.test (ofRows plan rows).rows with
  | error failure =>
      rcases failure with ⟨error, rest⟩
      have stops : (Scan.start scan).next (ofRows plan rows).rows =
          (some (.error error), { Scan.start scan with sorted := some [] }, rest) := by
        rw [Scan.next, if_neg unread, Scan.start, read]
      have empty : { Scan.start scan with sorted := some [] }.next rest =
          { Scan.start scan with sorted := some [] }.pop rest [] := by
        rw [Scan.next, if_neg unread]
      rcases nextRow_scan plan.projection stops with ⟨after, taken, later⟩
      rw [drainRows_of_some taken, later rfl]
      exact congrArg _ (drainRows_of_pop sorts plan.projection empty)
  | ok matched =>
      have popped : (Scan.start scan).next (ofRows plan rows).rows =
          (Scan.start scan).pop [] (Scan.arrange scan matched) := by
        rw [Scan.next, if_neg unread, Scan.start, read]
      exact drainRows_of_pop sorts plan.projection popped

end

end Cursor

end DocTable
