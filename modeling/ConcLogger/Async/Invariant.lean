import ConcLogger.Async.Steps
import ConcLogger.DrainLoop.Delivery

namespace ConcLogger.Async

open Concurrency

/-!
# Clients, worker and queue agree

`Linked` says that a client is inside the member function of the queue that
its own phase names, that the worker handles an entry only while it is at one,
and that only the thread that began the destructor is inside it.
-/

variable {Thread : Type}

/-- The member function of the queue that a client is inside of. -/
def Phase.member? : Phase Thread → Option Queue.Member
  | .logPushing => some .push
  | .destroyStopping => some .stop
  | _ => none

/-- The client is inside the destructor. -/
def Phase.Destroying : Phase Thread → Prop
  | .destroyStop | .destroyStopping | .destroyJoining
  | .destroySinks _ => True
  | _ => False

/-- The threads of the logger use the queue as the source does. -/
structure Linked (state : State Thread) : Prop where
  clients :
    ∀ thread,
      (state.core.shared.phase (.client thread)).member? =
        (state.phase thread).member?
  stage :
    state.stage ≠ .ready →
    ∃ item, state.current? = some item
  destroyer :
    ∀ thread,
      (state.phase thread).Destroying →
      state.destroyer = some thread

section Current

variable {state next : State Thread}

/-- The current entry depends on the worker's local state only. -/
theorem State.current?_congr
    (control : next.core.control = state.core.control)
    (batch : next.core.batch = state.core.batch) :
    next.current? = state.current? := by
  simp [State.current?, control, batch]

/-- At a current entry the worker is in the loop over its batch. -/
theorem State.entries_of_current?
    {item : Item Thread}
    (current : state.current? = some item) :
    ∃ second position,
      state.core.control = .entries second position ∧
        state.core.batch[position]? = some item := by
  unfold State.current? at current
  split at current
  · rename_i second position control
    exact ⟨second, position, control, current⟩
  · cases current

/-- The current entry is the first of those outstanding. -/
theorem State.outstanding_of_current?
    {item : Item Thread}
    (current : state.current? = some item) :
    state.core.outstanding = item :: state.core.outstanding.tail := by
  obtain ⟨second, position, control, entry⟩ :=
    State.entries_of_current? current
  obtain ⟨inside, rfl⟩ := List.getElem?_eq_some_iff.mp entry
  have shape :
      state.core.outstanding = state.core.batch.drop position := by
    simp only [DrainLoop.State.outstanding, control]
  rw [shape, List.drop_eq_getElem_cons inside, List.tail_cons]

/-- With a current entry, the worker's own step consumes it. -/
theorem State.consumed_of_current?
    {item : Item Thread}
    (current : state.current? = some item) :
    state.core.consumed .worker = [item] := by
  obtain ⟨second, position, control, entry⟩ :=
    State.entries_of_current? current
  simp [DrainLoop.State.consumed, control, entry]

/-- Without a current entry, the worker's own step consumes nothing. -/
theorem State.consumed_of_no_current
    (nothing : state.current? = none) :
    state.core.consumed .worker = [] := by
  unfold State.current? at nothing
  unfold DrainLoop.State.consumed
  split at nothing <;> simp_all

/-- A worker without a current entry is ready for the next one. -/
theorem Linked.ready_of_no_current
    (linked : Linked state)
    (nothing : state.current? = none) :
    state.stage = .ready := by
  by_contra busy
  obtain ⟨item, current⟩ := linked.stage busy
  rw [nothing] at current
  cases current

end Current

section Steps

variable
  [DecidableEq Thread]
  {config : LoggerConfig}
  {state next : State Thread}
  {event : Event Thread}
  {emitted : List (Obs Thread)}

/-- The member function a party is inside of after a step of the queue. -/
private theorem member?_of_shared?
    {core : DrainLoop.State Thread LogEntry}
    {called : DrainLoop.Event Thread LogEntry}
    {inner : Queue.Event (DrainLoop.Party Thread) LogEntry}
    {seen : List (Queue.Obs (DrainLoop.Party Thread) LogEntry)}
    (isInner : called.shared? = some inner)
    (taken : state.core.step? called = some (core, seen))
    (party : DrainLoop.Party Thread) :
    (core.shared.phase party).member? =
      inner.memberAfter party
        (state.core.shared.phase party).member? :=
  (DrainLoop.State.queueStep_of_shared? isInner taken).member?_eq party

namespace Linked

/-- A step of the queue changes no current entry. -/
private theorem stage_of_shared?
    (linked : Linked state)
    {called : DrainLoop.Event Thread LogEntry}
    (other : called ≠ .worker)
    {seen : List (Queue.Obs (DrainLoop.Party Thread) LogEntry)}
    (taken : state.core.step? called = some (next.core, seen))
    (stage : next.stage = state.stage) :
    next.stage ≠ .ready →
    ∃ item, next.current? = some item := by
  obtain ⟨inner, isInner⟩ := DrainLoop.Event.exists_shared? other
  obtain ⟨_, control, batch⟩ :=
    DrainLoop.State.step?_of_shared? isInner taken
  rw [stage, State.current?_congr control batch]
  exact linked.stage

/-- One client moves without entering or leaving the queue. -/
private theorem move
    (linked : Linked state)
    {thread : Thread}
    {phase : Phase Thread}
    (member : phase.member? = (state.phase thread).member?)
    (destroying : phase.Destroying → (state.phase thread).Destroying)
    (core : next.core = state.core)
    (stage : next.stage = state.stage)
    (moved : next.phase = Function.update state.phase thread phase)
    (destroyer : next.destroyer = state.destroyer) :
    Linked next where
  clients := by
    rw [core, moved]
    refine forall_update
      (fun other (phase : Phase Thread) =>
        (state.core.shared.phase (.client other)).member? =
          phase.member?)
      (fun other _ => linked.clients other) ?_
    rw [member]
    exact linked.clients thread
  stage := by
    have same : next.current? = state.current? :=
      State.current?_congr (by rw [core]) (by rw [core])
    rw [stage, same]
    exact linked.stage
  destroyer := by
    rw [moved, destroyer]
    exact forall_update
      (fun other (phase : Phase Thread) =>
        phase.Destroying → state.destroyer = some other)
      (fun other _ => linked.destroyer other)
      (fun inside => linked.destroyer thread (destroying inside))

/-- One client enters or leaves a member function of the queue. -/
private theorem call
    (linked : Linked state)
    {thread : Thread}
    {phase : Phase Thread}
    {called : DrainLoop.Event Thread LogEntry}
    {inner : Queue.Event (DrainLoop.Party Thread) LogEntry}
    {seen : List (Queue.Obs (DrainLoop.Party Thread) LogEntry)}
    (isInner : called.shared? = some inner)
    (taken : state.core.step? called = some (next.core, seen))
    (member :
      inner.memberAfter (.client thread)
          (state.core.shared.phase (.client thread)).member? =
        phase.member?)
    (others :
      ∀ other,
        other ≠ thread →
        inner.memberAfter (.client other)
            (state.core.shared.phase (.client other)).member? =
          (state.core.shared.phase (.client other)).member?)
    (destroying : phase.Destroying → (state.phase thread).Destroying)
    (stage : next.stage = state.stage)
    (moved : next.phase = Function.update state.phase thread phase)
    (destroyer : next.destroyer = state.destroyer) :
    Linked next where
  clients := by
    intro other
    rw [member?_of_shared? isInner taken, moved]
    by_cases same : other = thread
    · subst same
      simpa using member
    · rw [others other same, Function.update_of_ne same]
      exact linked.clients other
  stage := by
    refine linked.stage_of_shared? ?_ taken stage
    rintro rfl
    cases isInner
  destroyer := by
    rw [moved, destroyer]
    exact forall_update
      (fun other (phase : Phase Thread) =>
        phase.Destroying → state.destroyer = some other)
      (fun other _ => linked.destroyer other)
      (fun inside => linked.destroyer thread (destroying inside))

/-- Every step of a client keeps the links. -/
theorem clientStep
    {thread : Thread}
    (linked : Linked state)
    (step : ClientStep config state thread emitted next) :
    Linked next := by
  cases step with
  | count entry core seen phase taken =>
      refine linked.call rfl taken ?_ ?_ ?_ rfl rfl rfl
      · simp [Queue.Event.memberAfter, Queue.Operation.member,
          Phase.member?]
      · intro other different
        simp [Queue.Event.memberAfter, different]
      · simp [Phase.Destroying]
  | pushed item undelivered core seen phase returning taken =>
      refine linked.call rfl taken ?_ ?_ ?_ rfl rfl rfl
      · split <;> simp [Queue.Event.memberAfter, Phase.member?]
      · intro other different
        simp [Queue.Event.memberAfter, different]
      · split <;> simp [Phase.Destroying]
  | stop core seen phase taken =>
      refine linked.call rfl taken ?_ ?_ ?_ rfl rfl rfl
      · simp [Queue.Event.memberAfter, Queue.Operation.member,
          Phase.member?]
      · intro other different
        simp [Queue.Event.memberAfter, different]
      · simp [phase, Phase.Destroying]
  | stopped core seen phase returning taken =>
      refine linked.call rfl taken ?_ ?_ ?_ rfl rfl rfl
      · simp [Queue.Event.memberAfter, Phase.member?]
      · intro other different
        simp [Queue.Event.memberAfter, different]
      · simp [phase, Phase.Destroying]
  | settle item undelivered phase =>
      refine linked.move ?_ ?_ rfl rfl rfl rfl
      · split <;> simp [phase, Phase.member?]
      · split <;> simp [Phase.Destroying]
  | flushPass awaiting | flushBlock awaiting =>
      refine linked.move ?_ (by simp [Phase.Destroying])
        rfl rfl rfl rfl
      rcases awaiting with phase | ⟨phase, _⟩ <;>
        simp [phase, Phase.member?]
  | notify item phase | logReturn logged phase
  | flushSleep phase | flushSink position phase
  | flushReturn position phase | join broke phase
  | destroySink position phase | destroyReturn position phase =>
      refine linked.move ?_ ?_ rfl rfl rfl rfl <;>
        simp [phase, Phase.member?, Phase.Destroying]

/-- Every step of the worker keeps the links. -/
theorem workerStep
    (linked : Linked state)
    (step : WorkerStep config state emitted next) :
    Linked next := by
  have clients :
      ∀ thread,
        (next.core.shared.phase (.client thread)).member? =
          (state.phase thread).member? := by
    intro thread
    rcases step.core_cases with ⟨same, _⟩ | taken
    · rw [same]
      exact linked.clients thread
    · rw [(DrainLoop.Step.of_step? taken).clients_of_worker.1]
      exact linked.clients thread
  cases step with
  | move core seen stage nothing taken =>
      exact ⟨clients, fun busy => (busy stage).elim, linked.destroyer⟩
  | dispatch item stage current =>
      exact ⟨clients, fun _ => ⟨item, current⟩, linked.destroyer⟩
  | write position todo item stage current =>
      exact ⟨clients, fun _ => ⟨item, current⟩, linked.destroyer⟩
  | join stage | settleLast stage =>
      exact ⟨clients, fun _ => linked.stage (by simp [stage]),
        linked.destroyer⟩
  | settle | notify =>
      exact ⟨clients, fun busy => (busy rfl).elim, linked.destroyer⟩

/-- Every step keeps clients, worker and queue linked. -/
theorem step
    (linked : Linked state)
    (step : Step config state event emitted next) :
    Linked next := by
  cases step with
  | log thread level message withThreadDump environment phase idle
      admitted =>
      refine linked.move ?_ ?_ rfl rfl rfl rfl <;>
        rcases admitted with ⟨_, rfl⟩ | ⟨entry, _, rfl⟩ <;>
          simp [idle, Phase.member?, Phase.Destroying]
  | flush thread idle =>
      refine linked.move ?_ ?_ rfl rfl rfl rfl <;>
        simp [idle, Phase.member?, Phase.Destroying]
  | destroy thread idle alive =>
      have outside :
          ∀ other, ¬ (state.phase other).Destroying := by
        intro other inside
        have isDestroyer := linked.destroyer other inside
        rw [alive] at isDestroyer
        cases isDestroyer
      exact {
        clients := by
          refine forall_update
            (fun other (phase : Phase Thread) =>
              (state.core.shared.phase (.client other)).member? =
                phase.member?)
            (fun other _ => linked.clients other) ?_
          simpa [idle, Phase.member?] using linked.clients thread
        stage := linked.stage
        destroyer := by
          exact forall_update
            (fun other (phase : Phase Thread) =>
              phase.Destroying → some thread = some other)
            (fun other _ inside => (outside other inside).elim)
            (fun _ => rfl)
      }
  | client thread emitted next step =>
      exact linked.clientStep step
  | worker event emitted next isWorker step =>
      exact linked.workerStep step
  | inner event called core seen isCore taken =>
      have other := Event.ne_worker_of_core? isCore
      obtain ⟨inner, isInner⟩ := DrainLoop.Event.exists_shared? other
      exact {
        clients := by
          intro thread
          rw [member?_of_shared? isInner taken]
          refine Eq.trans ?_ (linked.clients thread)
          cases event <;> cases isCore <;> cases isInner <;> rfl
        stage := linked.stage_of_shared? other taken rfl
        destroyer := linked.destroyer
      }
  | wake thread =>
      exact ⟨linked.clients, linked.stage, linked.destroyer⟩

/-- In every reachable state clients, worker and queue are linked. -/
theorem of_reaches
    {allowed : State Thread → Event Thread → Prop}
    {observed : List (Obs Thread)}
    (reached :
      (machine Thread config).ReachesBy allowed observed state) :
    Linked state :=
  reached.invariant
    (fun _ state => Linked state)
    {
      clients := fun _ => rfl
      stage := fun busy => (busy rfl).elim
      destroyer := by
        intro thread inside
        cases inside
    }
    (fun _ linked _ taken => linked.step (Step.of_step? taken))

end Linked

end Steps

end ConcLogger.Async
