import DocTable.Trace
import Mathlib.Data.List.DropRight
import Mathlib.Data.List.Infix

/-!
# Capture over steps

Guards are taken and given up, texts are recorded and asked for. As long as a guard is alive, a
text that has been recorded is due until it is drained. There is one collection only, however, and
no guard looks at the others: taking one throws away what has been collected for them, and giving
one up switches capture off for them as well. What is returned is therefore what has been recorded
behind the last such step, and it is what is due exactly if nothing that is due was disturbed.
-/

namespace DocTable.Trace

/-- What can be done with a trace. -/
inductive Step where
  | enable
  | disable
  | record (text : String)
  | drain
  | snapshot
deriving DecidableEq, Repr

namespace Step

/-- The trace behind a step. -/
def apply (trace : Trace) : Step → Trace
  | .enable => trace.enable
  | .disable => trace.disable
  | .record text => trace.record text
  | .drain => trace.drain.2
  | .snapshot => trace

/-- The texts that a step returns, if it is asked for any. -/
def answer? (trace : Trace) : Step → Option (List String)
  | .drain => some trace.drain.1
  | .snapshot => some trace.snapshot
  | .enable | .disable | .record _ => none

/-- Whether a step is asked for texts. -/
def asks : Step → Bool
  | .drain | .snapshot => true
  | .enable | .disable | .record _ => false

/-- Whether a step takes or gives up a guard. -/
def switches : Step → Bool
  | .enable | .disable => true
  | .record _ | .drain | .snapshot => false

/-- The text that a step records. -/
def text? : Step → Option String
  | .record text => some text
  | .enable | .disable | .drain | .snapshot => none

end Step

/-- The trace behind steps. -/
def after (steps : List Step) (trace : Trace) : Trace := steps.foldl Step.apply trace

/-- The answers to steps, one after the other. -/
def answers : List Step → Trace → List (Option (List String))
  | [], _ => []
  | step :: rest, trace => step.answer? trace :: answers rest (step.apply trace)

/-- The number of guards behind a step. -/
def Step.guards (guards : Nat) : Step → Nat
  | .enable => guards + 1
  | .disable => guards - 1
  | .record _ | .drain | .snapshot => guards

/-- The number of guards that are alive behind steps. -/
def alive (steps : List Step) : Nat := steps.foldl Step.guards 0

/-- The texts that have been recorded since the last drain, or since the start. -/
def due (steps : List Step) : List String :=
  (steps.rtakeWhile (· ≠ .drain)).filterMap Step.text?

/-- Steps behind each of which a guard is alive, after others that have left none. -/
structure ActivePeriod (before period : List Step) : Prop where
  idle : alive before = 0
  active : ∀ first, first ≠ [] → first <+: period → 0 < alive (before ++ first)

/-- The last step that has taken or given up a guard. -/
def lastSwitch? (steps : List Step) : Option Step := (steps.filter Step.switches).getLast?

/-- The texts that have been recorded since the last drain and since the last step that has taken
or given up a guard, if that has taken one. -/
def kept (steps : List Step) : List String :=
  if lastSwitch? steps = some .enable then
    (steps.rtakeWhile fun step => step ≠ .drain && !step.switches).filterMap Step.text?
  else []

/-- Every text that is due was recorded while capture was on, and no guard has been taken or given
up since. -/
def Undisturbed (steps : List Step) : Prop :=
  ∀ earlier text later, steps = earlier ++ .record text :: later → .drain ∉ later →
    lastSwitch? earlier = some .enable ∧ ∀ step ∈ later, step.switches = false

variable {steps before period : List Step} {step : Step}

theorem after_concat (steps : List Step) (step : Step) (trace : Trace) :
    after (steps ++ [step]) trace = step.apply (after steps trace) := by
  rw [after, List.foldl_concat, after]

theorem alive_concat (steps : List Step) (step : Step) :
    alive (steps ++ [step]) = step.guards (alive steps) := by
  rw [alive, List.foldl_concat, alive]

theorem due_concat (steps : List Step) (step : Step) :
    due (steps ++ [step]) =
      match step with
      | .drain => []
      | .record text => due steps ++ [text]
      | .enable | .disable | .snapshot => due steps := by
  cases step <;> simp [due, Step.text?]

theorem lastSwitch?_concat (steps : List Step) (step : Step) :
    lastSwitch? (steps ++ [step]) = if step.switches then some step else lastSwitch? steps := by
  cases step <;> simp [lastSwitch?, List.filter_append, Step.switches]

theorem kept_concat (steps : List Step) (step : Step) :
    kept (steps ++ [step]) =
      match step with
      | .enable | .disable | .drain => []
      | .record text => if lastSwitch? steps = some .enable then kept steps ++ [text] else []
      | .snapshot => kept steps := by
  by_cases on : lastSwitch? steps = some .enable <;>
    cases step <;> simp [kept, lastSwitch?_concat, Step.switches, Step.text?, on]

theorem alive_pos (on : lastSwitch? steps = some .enable) : 0 < alive steps := by
  induction steps using List.reverseRecOn with
  | nil => cases on
  | append_singleton steps step ih =>
      rw [lastSwitch?_concat] at on
      rw [alive_concat]
      cases step with
      | enable => exact Nat.succ_pos _
      | disable => cases on
      | record _ | drain | snapshot => exact ih on

/-- Capture is on exactly behind a step that has taken a guard, and what is kept is collected. -/
theorem after_eq (steps : List Step) :
    after steps {} =
      { captured := if lastSwitch? steps = some .enable then some (kept steps).reverse else none
        guards := alive steps } := by
  induction steps using List.reverseRecOn with
  | nil => rfl
  | append_singleton steps step ih =>
      rw [after_concat, ih, alive_concat, lastSwitch?_concat, kept_concat]
      cases step with
      | enable | snapshot => rfl
      | record _ | drain =>
          by_cases on : lastSwitch? steps = some .enable <;>
            simp [Step.apply, Step.guards, Step.switches, Trace.record, Trace.drain, on]
      | disable =>
          by_cases on : lastSwitch? steps = some .enable
          · obtain ⟨guards, alive⟩ := Nat.exists_eq_add_one.2 (alive_pos on)
            rw [alive]
            rfl
          · simp only [Step.apply, disable, if_neg on]
            split <;> simp_all [Step.guards, Step.switches]

/-- A step that asks for texts is answered with those that are kept. -/
theorem answer?_after (asks : step.asks = true) :
    step.answer? (after steps {}) = some (kept steps) := by
  have snapshot : (after steps {}).snapshot = kept steps := by
    rw [after_eq, Trace.snapshot]
    by_cases on : lastSwitch? steps = some .enable <;> simp [kept, on]
  cases step with
  | drain | snapshot => exact congrArg some snapshot
  | enable | disable | record _ => cases asks

theorem getElem?_answers (steps rest : List Step) (step : Step) (trace : Trace) :
    (answers (steps ++ step :: rest) trace)[steps.length]? =
      some (step.answer? (after steps trace)) := by
  induction steps generalizing trace with
  | nil => rfl
  | cons first steps ih => exact ih (first.apply trace)

/-- What is recorded by some steps and one more. -/
theorem forall_recorded_concat {property : List Step → String → List Step → Prop} :
    (∀ earlier text later, steps ++ [step] = earlier ++ .record text :: later →
        property earlier text later) ↔
      (∀ text, step = .record text → property steps text []) ∧
        ∀ earlier text later, steps = earlier ++ .record text :: later →
          property earlier text (later ++ [step]) := by
  constructor
  · intro each
    refine ⟨?_, ?_⟩
    · rintro text rfl
      exact each steps text [] rfl
    · rintro earlier text later rfl
      exact each earlier text (later ++ [step]) (by simp)
  · rintro ⟨last, before⟩ earlier text later equal
    rcases List.eq_nil_or_concat later with rfl | ⟨later, final, rfl⟩
    · obtain ⟨rfl, own⟩ := List.append_inj' equal rfl
      exact last text (List.singleton_inj.1 own)
    · rw [List.concat_eq_append] at equal ⊢
      rw [← List.cons_append, ← List.append_assoc] at equal
      obtain ⟨rfl, own⟩ := List.append_inj' equal rfl
      rw [← List.singleton_inj.1 own]
      exact before earlier text later rfl

theorem due_eq_nil_iff :
    due steps = [] ↔
      ∀ earlier text later, steps = earlier ++ .record text :: later → .drain ∈ later := by
  induction steps using List.reverseRecOn with
  | nil => simp [due]
  | append_singleton steps step ih =>
      rw [due_concat, forall_recorded_concat]
      cases step <;> simp [ih]

theorem undisturbed_concat_of_switches (switches : step.switches = true) :
    Undisturbed (steps ++ [step]) ↔ due steps = [] := by
  rw [Undisturbed, forall_recorded_concat, due_eq_nil_iff]
  cases step with
  | record _ | drain | snapshot => cases switches
  | enable | disable =>
      constructor
      · rintro ⟨-, each⟩ earlier text later equal
        by_contra undrained
        have late := (each earlier text later equal (by simp [undrained])).2
        exact Bool.false_ne_true ((late _ List.mem_concat_self).symm.trans switches)
      · intro drained
        refine ⟨nofun, ?_⟩
        intro earlier text later equal undrained
        exact absurd (List.mem_append_left _ (drained earlier text later equal)) undrained

theorem undisturbed_concat_drain : Undisturbed (steps ++ [.drain]) := by
  rw [Undisturbed, forall_recorded_concat]
  exact ⟨nofun, fun _ _ _ _ undrained => absurd List.mem_concat_self undrained⟩

/-- Any other step disturbs nothing, and a text must be recorded while capture is on. -/
theorem undisturbed_concat_of_silent (silent : step.switches = false) (keeps : step ≠ .drain) :
    Undisturbed (steps ++ [step]) ↔
      (∀ text, step = .record text → lastSwitch? steps = some .enable) ∧ Undisturbed steps := by
  have sameDrains (later : List Step) : .drain ∉ later ++ [step] ↔ .drain ∉ later := by
    simp [Ne.symm keeps]
  have sameSwitches (later : List Step) : (∀ other ∈ later ++ [step], other.switches = false) ↔
      ∀ other ∈ later, other.switches = false := by
    rw [List.forall_mem_append, List.forall_mem_singleton, and_iff_left silent]
  rw [Undisturbed, forall_recorded_concat, Undisturbed]
  simp only [sameDrains, sameSwitches]
  simp

/-- What is kept is what is due if and only if nothing that is due was disturbed. -/
theorem kept_eq_due_iff : kept steps = due steps ↔ Undisturbed steps := by
  induction steps using List.reverseRecOn with
  | nil => simp [kept, due, Undisturbed]
  | append_singleton steps step ih =>
      rw [kept_concat, due_concat]
      cases step with
      | enable | disable => rw [undisturbed_concat_of_switches rfl, eq_comm]
      | drain => simp [undisturbed_concat_drain]
      | snapshot =>
          rw [undisturbed_concat_of_silent rfl Step.noConfusion, ih]
          exact (and_iff_right nofun).symm
      | record text =>
          rw [undisturbed_concat_of_silent rfl Step.noConfusion, ← ih]
          by_cases on : lastSwitch? steps = some .enable <;> simp [on]

/-! ## Active periods -/

theorem activePeriod_nil (idle : alive steps = 0) : ActivePeriod steps [] where
  idle := idle
  active := fun _ nonempty leads => absurd (List.prefix_nil.1 leads) nonempty

theorem activePeriod_iff : ActivePeriod before period ↔
    alive before = 0 ∧ ∀ first ∈ period.inits, first ≠ [] → 0 < alive (before ++ first) := by
  constructor
  · rintro ⟨idle, active⟩
    exact ⟨idle, fun first leads nonempty => active first nonempty ((List.mem_inits _ _).1 leads)⟩
  · rintro ⟨idle, active⟩
    exact ⟨idle, fun first nonempty leads => active first ((List.mem_inits _ _).2 leads) nonempty⟩

instance : Decidable (ActivePeriod before period) := decidable_of_iff' _ activePeriod_iff

/-- All steps end with an active period, which is empty if no guard is alive. -/
theorem exists_activePeriod (steps : List Step) :
    ∃ before period, steps = before ++ period ∧ ActivePeriod before period := by
  induction steps using List.reverseRecOn with
  | nil => exact ⟨[], [], rfl, activePeriod_nil rfl⟩
  | append_singleton steps step ih =>
      by_cases idle : alive (steps ++ [step]) = 0
      · exact ⟨steps ++ [step], [], by simp, activePeriod_nil idle⟩
      · obtain ⟨before, period, rfl, own⟩ := ih
        refine ⟨before, period ++ [step], List.append_assoc .., own.idle, ?_⟩
        intro first nonempty leads
        rcases List.prefix_concat_iff.1 leads with rfl | leads
        · rw [← List.append_assoc]
          exact Nat.pos_of_ne_zero idle
        · exact own.active first nonempty leads

theorem kept_append_of_off (off : lastSwitch? before ≠ some .enable) (period : List Step) :
    kept (before ++ period) = kept period ∧
      (lastSwitch? (before ++ period) = some .enable ↔ lastSwitch? period = some .enable) := by
  induction period using List.reverseRecOn with
  | nil =>
      rw [List.append_nil, kept, if_neg off]
      exact ⟨rfl, fun on => absurd on off, nofun⟩
  | append_singleton period step ih =>
      rw [← List.append_assoc, kept_concat, kept_concat, lastSwitch?_concat, lastSwitch?_concat]
      cases step <;> simp [ih, Step.switches]

theorem alive_append_le (steps later : List Step) (none : .enable ∉ later) :
    alive (steps ++ later) ≤ alive steps := by
  induction later using List.reverseRecOn with
  | nil => simp
  | append_singleton later step ih =>
      rw [← List.append_assoc, alive_concat]
      cases step <;> grind [Step.guards]

namespace ActivePeriod

variable (active : ActivePeriod before period)

include active

theorem kept_append : kept (before ++ period) = kept period := by
  apply (kept_append_of_off ?_ period).1
  intro on
  exact absurd active.idle (Nat.ne_of_gt (alive_pos on))

theorem eq_enable {rest : List Step} (begins : period = step :: rest) : step = .enable := by
  have guarded := active.active [step] (List.cons_ne_nil _ _) (begins ▸ by simp)
  rw [alive_concat, active.idle] at guarded
  cases step with
  | enable => rfl
  | disable | record _ | drain | snapshot => cases guarded

theorem switches_eq_false {rest : List Step} (begins : period = .enable :: rest)
    (single : .enable ∉ rest) : ∀ step ∈ rest, step.switches = false := by
  intro step member
  cases step with
  | enable => exact absurd member single
  | record _ | drain | snapshot => rfl
  | disable =>
      obtain ⟨earlier, later, rfl⟩ := List.append_of_mem member
      have one : alive (before ++ [.enable] ++ earlier) ≤ 1 := by
        have bound := alive_append_le (before ++ [.enable]) earlier (by simp_all)
        rwa [alive_concat, active.idle] at bound
      have guarded := active.active (.enable :: earlier ++ [.disable]) (by simp) (by simp [begins])
      rw [← List.append_assoc, alive_concat, List.append_cons] at guarded
      exact absurd (Nat.sub_eq_zero_of_le one) (Nat.ne_of_gt guarded)

/-- Guards that do not overlap disturb nothing. -/
theorem undisturbed (single : .enable ∉ period.tail) : Undisturbed period := by
  intro earlier text later equal _
  cases period with
  | nil => simp at equal
  | cons step rest =>
      cases active.eq_enable rfl
      have silent := active.switches_eq_false rfl single
      cases earlier with
      | nil => cases equal
      | cons first earlier =>
          obtain ⟨rfl, rfl⟩ := List.cons_eq_cons.1 equal
          obtain ⟨own, behind⟩ := List.forall_mem_append.1 silent
          have none : earlier.filter Step.switches = [] :=
            List.filter_eq_nil_iff.2 fun step member => by simp [own step member]
          refine ⟨?_, (List.forall_mem_cons.1 behind).2⟩
          rw [lastSwitch?, List.filter_cons_of_pos rfl, none, List.getLast?_singleton]

end ActivePeriod

/-- Capture lasts as long as no guard interferes. A drain or a snapshot behind any steps returns the
texts that have been recorded since the last drain and since the last step with a guard, if that
has taken one, and nothing otherwise. The steps end with an active period. What is returned is what
is due, the texts recorded since the last drain of that period or since its start, if and only if
none of them was disturbed; and nothing is disturbed in a period in which the guards do not overlap,
or outside active periods. -/
theorem capture_lasts_iff (history rest : List Step) {query : Step} (asks : query.asks = true) :
    (answers (history ++ query :: rest) {})[history.length]? = some (some (kept history)) ∧
      (∃ before period, history = before ++ period ∧ ActivePeriod before period) ∧
      ∀ before period, history = before ++ period → ActivePeriod before period →
        (kept history = due period ↔ Undisturbed period) ∧
          (.enable ∉ period.tail → Undisturbed period) := by
  refine ⟨?_, exists_activePeriod history, ?_⟩
  · rw [getElem?_answers, answer?_after asks]
  · rintro before period rfl active
    rw [active.kept_append]
    exact ⟨kept_eq_due_iff, active.undisturbed⟩

/-- A second guard is taken when nothing is due, so its text is all that is due. -/
theorem capture_lasts_iff_of_nested :
    ActivePeriod [] [.enable, .record "a", .drain, .enable, .record "b"] ∧
      (answers [.enable, .record "a", .drain, .enable, .record "b", .snapshot, .drain] {})[5]? =
        some (some ["b"]) ∧
      Undisturbed [.enable, .record "a", .drain, .enable, .record "b"] := by
  have asks : Step.snapshot.asks = true := rfl
  obtain ⟨answered, -, lasts⟩ := capture_lasts_iff
    [.enable, .record "a", .drain, .enable, .record "b"] [.drain] asks
  have active : ActivePeriod [] [.enable, .record "a", .drain, .enable, .record "b"] := by decide
  exact ⟨active, answered, (lasts [] _ rfl active).1.1 (by decide)⟩

/-- A guard that is given up takes the capture of another one with it. -/
theorem capture_ends_with_other_guard :
    ActivePeriod [] [.enable, .enable, .disable, .record "SELECT 1"] ∧
      due [.enable, .enable, .disable, .record "SELECT 1"] = ["SELECT 1"] ∧
      answers [.enable, .enable, .disable, .record "SELECT 1", .drain] {} =
        [none, none, none, none, some []] := by
  exact ⟨by decide, by decide, rfl⟩

end DocTable.Trace
