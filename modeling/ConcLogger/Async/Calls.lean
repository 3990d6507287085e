import ConcLogger.Async.Delivery

namespace ConcLogger.Async

open Concurrency

/-!
# Calls under way

A sink's `write` takes time.  Until the iteration of the parallel loop that has
called it is complete, the entry stays what it is, whatever else happens; and
a client inside a call is moved by its own steps only.
-/

variable {Thread : Type}

/-- The entry that the iteration at a position has yet to write. -/
def State.writing?
    (state : State Thread)
    (position : Nat) :
    Option (Item Thread) :=
  match state.stage with
  | .dispatching todo =>
      if position ∈ todo then state.current? else none
  | _ => none

section Steps

variable
  [DecidableEq Thread]
  {config : LoggerConfig}
  {state next : State Thread}
  {event : Event Thread}
  {emitted : List (Obs Thread)}
  {thread : Thread}
  {position : Nat}

omit [DecidableEq Thread] in
/-- What an iteration has yet to write is the current entry of a batch. -/
theorem State.writing?_eq_some
    {item : Item Thread} :
    state.writing? position = some item ↔
      ∃ todo,
        state.stage = .dispatching todo ∧
          position ∈ todo ∧
          state.current? = some item := by
  unfold State.writing?
  cases state.stage with
  | dispatching todo =>
      simp
  | _ =>
      simp

omit [DecidableEq Thread] in
/-- An iteration writes the entry that it has yet to write. -/
theorem State.write?_eq_some
    (taken : state.write? position = some (next, emitted)) :
    ∃ item todo,
      state.writing? position = some item ∧
        state.stage = .dispatching todo ∧
        next = { state with stage := .dispatching (todo.erase position) } ∧
        emitted = [.wrote position item] := by
  unfold State.write? at taken
  split at taken
  · rename_i todo item stage current
    split at taken
    · rename_i remains
      cases taken
      exact ⟨item, todo,
        State.writing?_eq_some.mpr ⟨todo, stage, remains, current⟩,
        stage, rfl, rfl⟩
    · cases taken
  · cases taken

omit [DecidableEq Thread] in
/-- What an iteration has yet to write it can write. -/
theorem State.isSome_write?
    {item : Item Thread}
    (isWriting : state.writing? position = some item) :
    (state.write? position).isSome = true := by
  obtain ⟨todo, stage, remains, current⟩ :=
    State.writing?_eq_some.mp isWriting
  simp [State.write?, stage, current, remains]

/-- In every reachable state the remaining iterations are within the loop. -/
theorem TodoBounded.of_reaches
    {allowed : State Thread → Event Thread → Prop}
    {observed : List (Obs Thread)}
    (reached : (machine Thread config).ReachesBy allowed observed state) :
    TodoBounded config state :=
  reached.invariant
    (fun _ state => TodoBounded config state)
    (fun _ shape => by cases shape)
    (fun _ bounded _ taken => bounded.step (Step.of_step? taken))

/-- The worker waits for the iterations of the parallel loop. -/
private theorem worker?_eq_none
    {todo : Finset Nat}
    (stage : state.stage = .dispatching todo)
    (remains : position ∈ todo) :
    state.worker? config = none := by
  simp [State.worker?, stage, Finset.ne_empty_of_mem remains]

/-- An entry stays to be written until the iteration is complete. -/
theorem State.writing?_of_step?
    {item : Item Thread}
    (isWriting : state.writing? position = some item)
    (other : event ≠ .write position)
    (taken : state.step? config event = some (next, emitted)) :
    next.writing? position = some item := by
  obtain ⟨todo, stage, remains, current⟩ :=
    State.writing?_eq_some.mp isWriting
  by_cases isWrite : ∃ written, event = .write written
  · obtain ⟨written, rfl⟩ := isWrite
    obtain ⟨_, _, _, sameStage, rfl, rfl⟩ := State.write?_eq_some taken
    cases stage.symm.trans sameStage
    refine State.writing?_eq_some.mpr ⟨_, rfl, ?_, current⟩
    exact Finset.mem_erase.mpr ⟨fun same => other (by rw [same]), remains⟩
  · have kept : next.stage = state.stage ∧ next.current? = state.current? := by
      cases Step.of_step? taken with
      | client thread emitted next step =>
          exact step.stage_eq
      | worker event emitted next isWorker step =>
          rcases isWorker with rfl | ⟨written, _, rfl, _⟩
          · rw [State.step?, worker?_eq_none stage remains] at taken
            cases taken
          · exact (isWrite ⟨written, rfl⟩).elim
      | inner event inner core seen isInner inside =>
          obtain ⟨called, isCalled⟩ :=
            DrainLoop.Event.exists_shared? (Event.ne_worker_of_core? isInner)
          obtain ⟨_, control, batch⟩ :=
            DrainLoop.State.step?_of_shared? isCalled inside
          exact ⟨rfl, State.current?_congr control batch⟩
      | _ =>
          exact ⟨rfl, rfl⟩
    exact State.writing?_eq_some.mpr
      ⟨todo, kept.1.trans stage, remains, kept.2.trans current⟩

/-- Only the iteration at a position writes there. -/
theorem written_eq_nil_of_step?
    (other : event ≠ .write position)
    (taken : state.step? config event = some (next, emitted)) :
    written position emitted = [] := by
  by_cases isWrite : ∃ chosen, event = .write chosen
  · obtain ⟨chosen, rfl⟩ := isWrite
    obtain ⟨_, _, _, _, _, rfl⟩ := State.write?_eq_some taken
    have different : chosen ≠ position := fun same => other (by rw [same])
    simp [different]
  · cases Step.of_step? taken with
    | client thread emitted next step =>
        exact step.settles_nothing.2 position
    | worker event emitted next isWorker step =>
        cases step with
        | write chosen todo item stage current remains =>
            rcases isWorker with rfl | ⟨chosen, _, rfl, _⟩
            · rw [State.step?, worker?_eq_none stage remains] at taken
              cases taken
            · exact (isWrite ⟨chosen, rfl⟩).elim
        | _ =>
            simp
    | _ =>
        simp

/-- A client inside a call is moved by its own steps only. -/
theorem phase_of_step?
    (busy : state.phase thread ≠ .idle)
    (other : event ≠ .client thread)
    (taken : state.step? config event = some (next, emitted)) :
    next.phase thread = state.phase thread := by
  cases Step.of_step? taken with
  | log mover level message withThreadDump environment phase idle
  | flush mover idle | destroy mover idle =>
      have different : thread ≠ mover := by
        rintro rfl
        exact busy idle
      exact Function.update_of_ne different _ _
  | client mover emitted next step =>
      have different : thread ≠ mover := by
        rintro rfl
        exact other rfl
      cases step <;> exact Function.update_of_ne different _ _
  | worker event emitted next isWorker step =>
      rw [step.clients_eq.1]
  | _ =>
      rfl

/-- A client inside a call does not call `flush`. -/
theorem flushCalled_not_mem_of_step?
    (busy : state.phase thread ≠ .idle)
    (taken : state.step? config event = some (next, emitted)) :
    .flushCalled thread ∉ emitted := by
  cases Step.of_step? taken with
  | flush mover idle =>
      have different : thread ≠ mover := by
        rintro rfl
        exact busy idle
      simpa using different
  | client mover emitted next step =>
      cases step <;> simp
  | worker event emitted next isWorker step =>
      cases step <;> simp [State.settling]
  | _ =>
      simp

/-- `~Logger` returns in a step of its caller. -/
theorem Step.client_of_destroyReturned
    (step : Step config state event emitted next)
    (returned : .destroyReturned thread ∈ emitted) :
    ∃ mover, event = .client mover := by
  cases step with
  | client mover emitted next step =>
      exact ⟨mover, rfl⟩
  | worker event emitted next isWorker step =>
      cases step <;> simp [State.settling] at returned
  | _ =>
      simp at returned

/-- The two loops over the sinks, that of `flush` and that of `~Logger`. -/
def Loop (loop : Nat → Phase Thread) : Prop :=
  loop = .flushSinks ∨ loop = .destroySinks

omit [DecidableEq Thread] in
/-- A client inside a loop is inside a call. -/
theorem Loop.busy
    {loop : Nat → Phase Thread}
    (isLoop : Loop loop)
    (phase : state.phase thread = loop position) :
    state.phase thread ≠ .idle := by
  rw [phase]
  rcases isLoop with rfl | rfl <;> simp

/-- A client comes to a sink from the one before it. -/
theorem Loop.of_step?
    {loop : Nat → Phase Thread}
    (isLoop : Loop loop)
    (arrived : next.phase thread = loop position)
    (taken : state.step? config event = some (next, emitted)) :
    state.phase thread = loop position ∨
      position = 0 ∨
      ∃ earlier,
        position = earlier + 1 ∧
          event = .client thread ∧
          state.phase thread = loop earlier ∧
          earlier < config.sinkCount := by
  by_cases own : event = .client thread
  · subst own
    cases Step.of_step? taken with
    | client thread emitted next step =>
        cases step with
        | flushPass =>
            rcases isLoop with rfl | rfl <;> simp at arrived
            exact Or.inr (Or.inl arrived.symm)
        | join =>
            rcases isLoop with rfl | rfl <;> simp at arrived
            exact Or.inr (Or.inl arrived.symm)
        | flushSink earlier phase more | destroySink earlier phase more =>
            rcases isLoop with rfl | rfl <;> simp at arrived
            exact Or.inr (Or.inr ⟨earlier, arrived.symm, rfl, phase, more⟩)
        | pushed | settle =>
            rcases isLoop with rfl | rfl <;>
              simp only [State.phase_moveTo, Function.update_self] at arrived <;>
              split at arrived <;>
              cases arrived
        | _ =>
            rcases isLoop with rfl | rfl <;> simp at arrived
    | worker event emitted next isWorker step =>
        rcases isWorker with isWorker | ⟨_, _, isWrite, _⟩
        · cases isWorker
        · cases isWrite
    | inner event inner core seen isInner inside =>
        cases isInner
  · by_cases busy : state.phase thread = .idle
    · -- Only `log`, `flush` and the destructor begin, and not in a loop.
      cases Step.of_step? taken with
      | log mover level message withThreadDump environment phase idle
          admitted =>
          by_cases same : thread = mover
          · subst same
            rcases admitted with ⟨_, rfl⟩ | ⟨entry, _, rfl⟩ <;>
              rcases isLoop with rfl | rfl <;>
              simp at arrived
          · exact Or.inl (by simpa [same] using arrived)
      | flush mover idle | destroy mover idle =>
          by_cases same : thread = mover
          · subst same
            rcases isLoop with rfl | rfl <;> simp at arrived
          · exact Or.inl (by simpa [same] using arrived)
      | client mover emitted next step =>
          have different : thread ≠ mover := by
            rintro rfl
            exact own rfl
          left
          cases step <;> simpa [different] using arrived
      | worker event emitted next isWorker step =>
          rw [step.clients_eq.1] at arrived
          exact Or.inl arrived
      | _ =>
          exact Or.inl arrived
    · exact Or.inl ((phase_of_step? busy own taken).symm.trans arrived)

end Steps

end ConcLogger.Async
