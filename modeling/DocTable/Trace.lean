/-!
# Traces of statements

A trace collects the texts of statements while capture is on. Switching capture on begins a new
collection and yields a guard; giving up any guard switches capture off.
-/

namespace DocTable

/-- The state of capture. -/
structure Trace where
  /-- The texts collected since capture was switched on or last drained, the last one first; `none`
  while capture is off. -/
  captured : Option (List String) := none
  /-- The number of guards that have not been given up. -/
  guards : Nat := 0
deriving DecidableEq, Repr

namespace Trace

/-- Switches capture on with nothing collected and takes a guard. -/
def enable (trace : Trace) : Trace := ⟨some [], trace.guards + 1⟩

/-- Gives up the newest guard, if there is one, which switches capture off. -/
def disable (trace : Trace) : Trace :=
  match trace.guards with
  | 0 => trace
  | guards + 1 => ⟨none, guards⟩

/-- Collects a text while capture is on. -/
def record (trace : Trace) (text : String) : Trace :=
  { trace with captured := trace.captured.map (text :: ·) }

/-- The collected texts in order. -/
def snapshot (trace : Trace) : List String := (trace.captured.getD []).reverse

/-- The collected texts in order, and the trace without them. -/
def drain (trace : Trace) : List String × Trace :=
  (trace.snapshot, { trace with captured := trace.captured.map fun _ => [] })

/-- What is drained is gone. -/
@[simp] theorem snapshot_drain (trace : Trace) : trace.drain.2.snapshot = [] := by
  obtain ⟨captured, guards⟩ := trace
  cases captured <;> rfl

end Trace

end DocTable
