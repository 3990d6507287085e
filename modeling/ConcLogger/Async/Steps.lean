import ConcLogger.Async.Threads
import ConcLogger.DrainLoop.Invariant

namespace ConcLogger.Async

open Concurrency

/-!
# Everything one step of an asynchronous logger can do

The steps of clients and of the worker are listed with their guards and their
effects, and `Step.of_step?` shows that the executable step function takes no
others.  Forgetting everything but the queue and the worker's control, a run
of the logger is a run of the drain loop.
-/

section MoveTo

variable
  {Thread : Type}
  [DecidableEq Thread]
  (state : State Thread)
  (thread : Thread)
  (phase : Phase Thread)

@[simp] theorem State.core_moveTo :
    (state.moveTo thread phase).core = state.core :=
  rfl

@[simp] theorem State.stage_moveTo :
    (state.moveTo thread phase).stage = state.stage :=
  rfl

@[simp] theorem State.pending_moveTo :
    (state.moveTo thread phase).pending = state.pending :=
  rfl

@[simp] theorem State.drainedMutex_moveTo :
    (state.moveTo thread phase).drainedMutex = state.drainedMutex :=
  rfl

@[simp] theorem State.drainedCv_moveTo :
    (state.moveTo thread phase).drainedCv = state.drainedCv :=
  rfl

@[simp] theorem State.destroyer_moveTo :
    (state.moveTo thread phase).destroyer = state.destroyer :=
  rfl

@[simp] theorem State.phase_moveTo :
    (state.moveTo thread phase).phase =
      Function.update state.phase thread phase :=
  rfl

end MoveTo

/-- The steps of a client outside the queue. -/
inductive ClientStep
    {Thread : Type}
    [DecidableEq Thread]
    (config : LoggerConfig)
    (state : State Thread)
    (thread : Thread) :
    List (Obs Thread) → State Thread → Prop where
  | count
      (entry : LogEntry)
      (core : DrainLoop.State Thread LogEntry)
      (emitted : List (Queue.Obs (DrainLoop.Party Thread) LogEntry))
      (phase : state.phase thread = .logCounting entry)
      (taken :
        state.core.step?
            (.push thread entry config.policy.overflowPolicy) =
          some (core, emitted)) :
      ClientStep config state thread (emitted.map .queue)
        { state.moveTo thread .logPushing with
          core := core
          pending := state.pending + 1 }
  | pushed
      (item : Item Thread)
      (undelivered : Nat)
      (core : DrainLoop.State Thread LogEntry)
      (emitted : List (Queue.Obs (DrainLoop.Party Thread) LogEntry))
      (phase : state.phase thread = .logPushing)
      (returning :
        state.core.shared.phase (.client thread) =
          .pushReturning item undelivered)
      (taken : state.core.step? (.ret thread) = some (core, emitted)) :
      ClientStep config state thread (emitted.map .queue)
        { state.moveTo thread
            (if 0 < undelivered then
              .logSettling item undelivered
            else
              .logReturning (some item)) with
          core := core }
  | settle
      (item : Item Thread)
      (undelivered : Nat)
      (phase : state.phase thread = .logSettling item undelivered) :
      ClientStep config state thread []
        { state.moveTo thread
            (if state.pending = undelivered then
              .logNotifying item
            else
              .logReturning (some item)) with
          pending := fetchSub state.pending undelivered }
  | notify
      (item : Item Thread)
      (phase : state.phase thread = .logNotifying item) :
      ClientStep config state thread []
        { state.moveTo thread (.logReturning (some item)) with
          drainedCv := state.drainedCv.notifyAll }
  | logReturn
      (logged : Option (Item Thread))
      (phase : state.phase thread = .logReturning logged) :
      ClientStep config state thread [.logReturned thread logged]
        (state.moveTo thread .idle)
  | flushPass
      (awaiting :
        state.phase thread = .flushLocking ∨
          (state.phase thread = .flushWaiting ∧
            thread ∉ state.drainedCv.waiters))
      (free : state.drainedMutex = none)
      (zero : state.pending = 0) :
      ClientStep config state thread []
        (state.moveTo thread (.flushSinks 0))
  | flushBlock
      (awaiting :
        state.phase thread = .flushLocking ∨
          (state.phase thread = .flushWaiting ∧
            thread ∉ state.drainedCv.waiters))
      (free : state.drainedMutex = none)
      (positive : state.pending ≠ 0) :
      ClientStep config state thread []
        { state.moveTo thread .flushBlocking with
          drainedMutex := some thread }
  | flushSleep
      (phase : state.phase thread = .flushBlocking) :
      ClientStep config state thread []
        { state.moveTo thread .flushWaiting with
          drainedMutex := none
          drainedCv := state.drainedCv.sleep thread }
  | flushSink
      (position : Nat)
      (phase : state.phase thread = .flushSinks position)
      (more : position < config.sinkCount) :
      ClientStep config state thread [.sinkFlushed thread position]
        (state.moveTo thread (.flushSinks (position + 1)))
  | flushReturn
      (position : Nat)
      (phase : state.phase thread = .flushSinks position)
      (done : config.sinkCount ≤ position) :
      ClientStep config state thread [.flushReturned thread]
        (state.moveTo thread .idle)
  | stop
      (core : DrainLoop.State Thread LogEntry)
      (emitted : List (Queue.Obs (DrainLoop.Party Thread) LogEntry))
      (phase : state.phase thread = .destroyStop)
      (taken : state.core.step? (.stop thread) = some (core, emitted)) :
      ClientStep config state thread (emitted.map .queue)
        { state.moveTo thread .destroyStopping with core := core }
  | stopped
      (core : DrainLoop.State Thread LogEntry)
      (emitted : List (Queue.Obs (DrainLoop.Party Thread) LogEntry))
      (phase : state.phase thread = .destroyStopping)
      (returning :
        state.core.shared.phase (.client thread) = .stopReturning)
      (taken : state.core.step? (.ret thread) = some (core, emitted)) :
      ClientStep config state thread (emitted.map .queue)
        { state.moveTo thread .destroyJoining with core := core }
  | join
      (broke : Bool)
      (phase : state.phase thread = .destroyJoining)
      (control : state.core.control = .finished broke) :
      ClientStep config state thread []
        (state.moveTo thread (.destroySinks 0))
  | destroySink
      (position : Nat)
      (phase : state.phase thread = .destroySinks position)
      (more : position < config.sinkCount) :
      ClientStep config state thread [.sinkFlushed thread position]
        (state.moveTo thread (.destroySinks (position + 1)))
  | destroyReturn
      (position : Nat)
      (phase : state.phase thread = .destroySinks position)
      (done : config.sinkCount ≤ position) :
      ClientStep config state thread [.destroyReturned thread]
        (state.moveTo thread .idle)

/-- The steps of the worker outside the queue. -/
inductive WorkerStep
    {Thread : Type}
    [DecidableEq Thread]
    (config : LoggerConfig)
    (state : State Thread) :
    List (Obs Thread) → State Thread → Prop where
  | move
      (core : DrainLoop.State Thread LogEntry)
      (emitted : List (Queue.Obs (DrainLoop.Party Thread) LogEntry))
      (stage : state.stage = .ready)
      (nothing : state.current? = none)
      (taken : state.core.step? .worker = some (core, emitted)) :
      WorkerStep config state (emitted.map .queue)
        { state with core := core }
  | dispatch
      (item : Item Thread)
      (stage : state.stage = .ready)
      (current : state.current? = some item) :
      WorkerStep config state []
        { state with stage := .dispatching config.dispatch }
  | write
      (position : Nat)
      (todo : Finset Nat)
      (item : Item Thread)
      (stage : state.stage = .dispatching todo)
      (current : state.current? = some item)
      (remains : position ∈ todo) :
      WorkerStep config state [.wrote position item]
        { state with stage := .dispatching (todo.erase position) }
  | join
      (stage : state.stage = .dispatching ∅) :
      WorkerStep config state [] { state with stage := .settling }
  | settle
      (core : DrainLoop.State Thread LogEntry)
      (emitted : List (Queue.Obs (DrainLoop.Party Thread) LogEntry))
      (stage : state.stage = .settling)
      (more : state.pending ≠ 1)
      (taken : state.core.step? .worker = some (core, emitted)) :
      WorkerStep config state
        (state.settling ++ emitted.map .queue)
        { state with
          core := core
          stage := .ready
          pending := fetchSub state.pending 1 }
  | settleLast
      (stage : state.stage = .settling)
      (last : state.pending = 1) :
      WorkerStep config state state.settling
        { state with
          stage := .notifying
          pending := fetchSub state.pending 1 }
  | notify
      (core : DrainLoop.State Thread LogEntry)
      (emitted : List (Queue.Obs (DrainLoop.Party Thread) LogEntry))
      (stage : state.stage = .notifying)
      (taken : state.core.step? .worker = some (core, emitted)) :
      WorkerStep config state (emitted.map .queue)
        { state with
          core := core
          stage := .ready
          drainedCv := state.drainedCv.notifyAll }

/-- The steps of an asynchronous logger. -/
inductive Step
    {Thread : Type}
    [DecidableEq Thread]
    (config : LoggerConfig)
    (state : State Thread) :
    Event Thread → List (Obs Thread) → State Thread → Prop where
  | log
      (thread : Thread)
      (level : LogLevel)
      (message : String)
      (withThreadDump : Bool)
      (environment : CallEnvironment)
      (phase : Phase Thread)
      (idle : state.phase thread = .idle)
      (admitted :
        (config.entry? level message withThreadDump environment = none ∧
            phase = .logReturning none) ∨
          ∃ entry,
            config.entry? level message withThreadDump environment =
                some entry ∧
              phase = .logCounting entry) :
      Step config state
        (.log thread level message withThreadDump environment)
        [.logCalled thread level message]
        (state.moveTo thread phase)
  | flush
      (thread : Thread)
      (idle : state.phase thread = .idle) :
      Step config state (.flush thread) [.flushCalled thread]
        (state.moveTo thread .flushLocking)
  | destroy
      (thread : Thread)
      (idle : state.phase thread = .idle)
      (alive : state.destroyer = none) :
      Step config state (.destroy thread) [.destroyCalled thread]
        { state.moveTo thread .destroyStop with
          destroyer := some thread }
  | client
      (thread : Thread)
      (emitted : List (Obs Thread))
      (next : State Thread)
      (step : ClientStep config state thread emitted next) :
      Step config state (.client thread) emitted next
  | worker
      (event : Event Thread)
      (emitted : List (Obs Thread))
      (next : State Thread)
      (isWorker :
        event = .worker ∨
          ∃ position todo,
            event = .write position ∧
              state.stage = .dispatching todo)
      (step : WorkerStep config state emitted next) :
      Step config state event emitted next
  | inner
      (event : Event Thread)
      (inner : DrainLoop.Event Thread LogEntry)
      (core : DrainLoop.State Thread LogEntry)
      (emitted : List (Queue.Obs (DrainLoop.Party Thread) LogEntry))
      (isInner : event.core? = some inner)
      (taken : state.core.step? inner = some (core, emitted)) :
      Step config state event (emitted.map .queue)
        { state with core := core }
  | wake
      (thread : Thread)
      (asleep : thread ∈ state.drainedCv.waiters) :
      Step config state (.wake thread) []
        { state with drainedCv := state.drainedCv.rouse thread }

section Exhaustive

variable
  {Thread : Type}
  [DecidableEq Thread]
  {config : LoggerConfig}
  {state next : State Thread}
  {emitted : List (Obs Thread)}

/-- What a step of the drain loop inside the logger consists of. -/
private theorem within_eq_some
    {event : DrainLoop.Event Thread LogEntry}
    {rest : State Thread}
    (taken : state.within event rest = some (next, emitted)) :
    ∃ core seen,
      state.core.step? event = some (core, seen) ∧
        next = { rest with core := core } ∧
        emitted = seen.map .queue := by
  simp only [State.within, Option.map_eq_some_iff] at taken
  obtain ⟨⟨core, seen⟩, inside, shape⟩ := taken
  cases shape
  exact ⟨core, seen, inside, rfl, rfl⟩

/-- An evaluation of the predicate of `drained_cv_` is one of the listed steps. -/
private theorem ClientStep.of_awaitDrained
    {thread : Thread}
    (awaiting :
      state.phase thread = .flushLocking ∨
        (state.phase thread = .flushWaiting ∧
          thread ∉ state.drainedCv.waiters))
    (taken : state.awaitDrained thread = some (next, emitted)) :
    ClientStep config state thread emitted next := by
  unfold State.awaitDrained at taken
  split at taken
  · rename_i free
    split at taken
    · rename_i zero
      cases taken
      exact .flushPass awaiting free zero
    · rename_i positive
      cases taken
      exact .flushBlock awaiting free positive
  · cases taken

/-- Every step of a client outside the queue is listed. -/
private theorem ClientStep.of_client?
    {thread : Thread}
    (taken : state.client? config thread = some (next, emitted)) :
    ClientStep config state thread emitted next := by
  unfold State.client? at taken
  cases phase : state.phase thread with
  | idle =>
      simp [phase] at taken
  | logCounting entry =>
      simp only [phase] at taken
      obtain ⟨core, seen, inside, rfl, rfl⟩ := within_eq_some taken
      exact .count entry core seen phase inside
  | logPushing =>
      simp only [phase] at taken
      split at taken
      · rename_i item undelivered returning
        obtain ⟨core, seen, inside, rfl, rfl⟩ := within_eq_some taken
        exact .pushed item undelivered core seen phase returning inside
      · cases taken
  | logSettling item undelivered =>
      simp only [phase] at taken
      cases taken
      exact .settle item undelivered phase
  | logNotifying item =>
      simp only [phase] at taken
      cases taken
      exact .notify item phase
  | logReturning logged =>
      simp only [phase] at taken
      cases taken
      exact .logReturn logged phase
  | flushLocking =>
      simp only [phase] at taken
      exact .of_awaitDrained (Or.inl phase) taken
  | flushBlocking =>
      simp only [phase] at taken
      cases taken
      exact .flushSleep phase
  | flushWaiting =>
      simp only [phase] at taken
      split at taken
      · rename_i awake
        exact .of_awaitDrained (Or.inr ⟨phase, awake⟩) taken
      · cases taken
  | flushSinks position =>
      simp only [phase] at taken
      split at taken
      · rename_i more
        cases taken
        exact .flushSink position phase more
      · rename_i done
        cases taken
        exact .flushReturn position phase (Nat.le_of_not_lt done)
  | destroyStop =>
      simp only [phase] at taken
      obtain ⟨core, seen, inside, rfl, rfl⟩ := within_eq_some taken
      exact .stop core seen phase inside
  | destroyStopping =>
      simp only [phase] at taken
      split at taken
      · rename_i returning
        obtain ⟨core, seen, inside, rfl, rfl⟩ := within_eq_some taken
        exact .stopped core seen phase returning inside
      · cases taken
  | destroyJoining =>
      simp only [phase] at taken
      split at taken
      · rename_i broke control
        cases taken
        exact .join broke phase control
      · cases taken
  | destroySinks position =>
      simp only [phase] at taken
      split at taken
      · rename_i more
        cases taken
        exact .destroySink position phase more
      · rename_i done
        cases taken
        exact .destroyReturn position phase (Nat.le_of_not_lt done)

/-- Every step of the worker outside the queue is listed. -/
private theorem WorkerStep.of_worker?
    (taken : state.worker? config = some (next, emitted)) :
    WorkerStep config state emitted next := by
  unfold State.worker? at taken
  cases stage : state.stage with
  | ready =>
      simp only [stage] at taken
      cases current : state.current? with
      | some item =>
          simp only [current] at taken
          cases taken
          exact .dispatch item stage current
      | none =>
          simp only [current] at taken
          obtain ⟨core, seen, inside, rfl, rfl⟩ := within_eq_some taken
          exact .move core seen stage current inside
  | dispatching todo =>
      simp only [stage, Option.ite_none_right_eq_some] at taken
      obtain ⟨rfl, shape⟩ := taken
      cases shape
      exact .join stage
  | settling =>
      simp only [stage] at taken
      split at taken
      · rename_i last
        cases taken
        exact .settleLast stage last
      · rename_i more
        simp only [Option.map_eq_some_iff] at taken
        obtain ⟨⟨middle, seen⟩, moved, shape⟩ := taken
        obtain ⟨core, seen, inside, rfl, rfl⟩ := within_eq_some moved
        cases shape
        exact .settle core seen stage more inside
  | notifying =>
      simp only [stage] at taken
      obtain ⟨core, seen, inside, rfl, rfl⟩ := within_eq_some taken
      exact .notify core seen stage inside

/-- An iteration of the parallel loop is one of the listed steps. -/
private theorem WorkerStep.of_write?
    {position : Nat}
    (taken : state.write? position = some (next, emitted)) :
    WorkerStep config state emitted next ∧
      ∃ todo, state.stage = .dispatching todo := by
  unfold State.write? at taken
  split at taken
  · rename_i todo item stage current
    split at taken
    · rename_i remains
      cases taken
      exact ⟨.write position todo item stage current remains,
        todo, stage⟩
    · cases taken
  · cases taken

/-- The executable step function takes only the listed steps. -/
theorem Step.of_step?
    {event : Event Thread}
    (taken : state.step? config event = some (next, emitted)) :
    Step config state event emitted next := by
  cases event with
  | log thread level message withThreadDump environment =>
      simp only [State.step?] at taken
      split at taken
      · rename_i idle
        cases taken
        refine .log thread level message withThreadDump environment
          _ idle ?_
        cases config.entry? level message withThreadDump environment with
        | none =>
            exact Or.inl ⟨rfl, rfl⟩
        | some entry =>
            exact Or.inr ⟨entry, rfl, rfl⟩
      · cases taken
  | flush thread =>
      simp only [State.step?] at taken
      split at taken
      · rename_i idle
        cases taken
        exact .flush thread idle
      · cases taken
  | destroy thread =>
      simp only [State.step?] at taken
      split at taken
      · rename_i idle alive
        cases taken
        exact .destroy thread idle alive
      · cases taken
  | client thread =>
      exact .client thread emitted next (.of_client? taken)
  | worker =>
      exact .worker .worker emitted next (Or.inl rfl)
        (.of_worker? taken)
  | write position =>
      obtain ⟨wrote, todo, stage⟩ := WorkerStep.of_write? taken
      exact .worker (.write position) emitted next
        (Or.inr ⟨position, todo, rfl, stage⟩) wrote
  | advance party =>
      obtain ⟨core, seen, inside, rfl, rfl⟩ := within_eq_some taken
      exact .inner _ (.advance party) core seen rfl inside
  | notifyOne party chosen =>
      obtain ⟨core, seen, inside, rfl, rfl⟩ := within_eq_some taken
      exact .inner _ (.notifyOne party chosen) core seen rfl inside
  | wakeQueue party =>
      obtain ⟨core, seen, inside, rfl, rfl⟩ := within_eq_some taken
      exact .inner _ (.wake party) core seen rfl inside
  | wake thread =>
      simp only [State.step?, Option.map_eq_some_iff] at taken
      obtain ⟨drainedCv, woken, shape⟩ := taken
      cases shape
      obtain ⟨asleep, rfl⟩ := Condvar.wake?_eq_some.mp woken
      exact .wake thread asleep

end Exhaustive

section Frame

variable
  {Thread : Type}
  [DecidableEq Thread]
  {config : LoggerConfig}
  {state next : State Thread}
  {emitted : List (Obs Thread)}

omit [DecidableEq Thread] in
/-- An event inside the queue is not the worker's own step. -/
theorem Event.ne_worker_of_core?
    {event : Event Thread}
    {called : DrainLoop.Event Thread LogEntry}
    (isCore : event.core? = some called) :
    called ≠ .worker := by
  rintro rfl
  cases event <;> cases isCore

/-- Only the call of `~Logger` makes a thread the destroyer. -/
theorem ClientStep.destroyer_eq
    {thread : Thread}
    (step : ClientStep config state thread emitted next) :
    next.destroyer = state.destroyer := by
  cases step <;> rfl

/-- The worker's steps leave the clients alone. -/
theorem WorkerStep.clients_eq
    (step : WorkerStep config state emitted next) :
    next.phase = state.phase ∧ next.destroyer = state.destroyer := by
  cases step <;> exact ⟨rfl, rfl⟩

end Frame

/-! ## The record of the queue -/

/-- What the queue shows. -/
@[simp] def Obs.queue? {Thread : Type} :
    Obs Thread →
      Option (Queue.Obs (DrainLoop.Party Thread) LogEntry)
  | .queue seen => some seen
  | _ => none

/-- The part of the record that belongs to the queue. -/
def trace
    {Thread : Type}
    (observed : List (Obs Thread)) :
    List (Queue.Obs (DrainLoop.Party Thread) LogEntry) :=
  observed.filterMap Obs.queue?

section Trace

variable {Thread : Type}

@[simp] theorem trace_nil :
    trace ([] : List (Obs Thread)) = [] :=
  rfl

@[simp] theorem trace_cons
    (seen : Obs Thread)
    (rest : List (Obs Thread)) :
    trace (seen :: rest) = seen.queue?.toList ++ trace rest :=
  filterMap_cons_eq_append Obs.queue? seen rest

@[simp] theorem trace_append
    (first second : List (Obs Thread)) :
    trace (first ++ second) = trace first ++ trace second :=
  List.filterMap_append

/-- A projection that is blind to the queue shows nothing of its steps. -/
theorem filterMap_map_queue
    {Shown : Type}
    (view : Obs Thread → Option Shown)
    (blind : ∀ seen, view (.queue seen) = none)
    (seen : List (Queue.Obs (DrainLoop.Party Thread) LogEntry)) :
    (seen.map .queue).filterMap view = [] := by
  rw [List.filterMap_map, List.filterMap_eq_nil_iff]
  intro observation _
  exact blind observation

/-- A projection that is blind to settlements shows nothing of them. -/
theorem filterMap_settling
    {Shown : Type}
    (view : Obs Thread → Option Shown)
    (blind : ∀ item, view (.settled item) = none)
    (state : State Thread) :
    state.settling.filterMap view = [] := by
  unfold State.settling
  rw [List.filterMap_map, List.filterMap_eq_nil_iff]
  intro item _
  exact blind item

@[simp] theorem trace_map_queue
    (seen : List (Queue.Obs (DrainLoop.Party Thread) LogEntry)) :
    trace (seen.map .queue) = seen := by
  induction seen with
  | nil =>
      rfl
  | cons first rest inductionHypothesis =>
      simpa using inductionHypothesis

@[simp] theorem trace_settling
    (state : State Thread) :
    trace state.settling = [] :=
  filterMap_settling Obs.queue? (fun _ => rfl) state

end Trace

section Core

variable
  {Thread : Type}
  [DecidableEq Thread]
  {config : LoggerConfig}
  {state next : State Thread}
  {emitted : List (Obs Thread)}

/-- A step of a client outside the queue moves the core by its own call at most. -/
theorem ClientStep.core_cases
    {thread : Thread}
    (step : ClientStep config state thread emitted next) :
    (next.core = state.core ∧ trace emitted = []) ∨
      ∃ inner,
        inner.party? = some (.client thread) ∧
          state.core.step? inner = some (next.core, trace emitted) := by
  cases step with
  | count entry core seen phase taken =>
      exact Or.inr
        ⟨.push thread entry config.policy.overflowPolicy,
          rfl, by simpa using taken⟩
  | pushed item undelivered core seen phase returning taken =>
      exact Or.inr ⟨.ret thread, rfl, by simpa using taken⟩
  | stop core seen phase taken =>
      exact Or.inr ⟨.stop thread, rfl, by simpa using taken⟩
  | stopped core seen phase returning taken =>
      exact Or.inr ⟨.ret thread, rfl, by simpa using taken⟩
  | _ =>
      exact Or.inl ⟨rfl, rfl⟩

/-- A step of the worker moves the core by its own step at most. -/
theorem WorkerStep.core_cases
    (step : WorkerStep config state emitted next) :
    (next.core = state.core ∧ trace emitted = []) ∨
      state.core.step? .worker = some (next.core, trace emitted) := by
  cases step with
  | move core seen stage nothing taken =>
      exact Or.inr (by simpa using taken)
  | settle core seen stage more taken =>
      exact Or.inr (by simpa using taken)
  | settleLast stage last =>
      exact Or.inl ⟨rfl, by simp⟩
  | notify core seen stage taken =>
      exact Or.inr (by simpa using taken)
  | _ =>
      exact Or.inl ⟨rfl, rfl⟩

/-- A step of the logger is silent for the drain loop or a step of it. -/
theorem Step.core_cases
    {event : Event Thread}
    (step : Step config state event emitted next) :
    (next.core = state.core ∧ trace emitted = []) ∨
      ∃ inner,
        state.core.step? inner = some (next.core, trace emitted) := by
  cases step with
  | client thread emitted next step =>
      rcases step.core_cases with silent | ⟨inner, _, taken⟩
      · exact Or.inl silent
      · exact Or.inr ⟨inner, taken⟩
  | worker event emitted next isWorker step =>
      exact step.core_cases.imp_right fun taken => ⟨_, taken⟩
  | inner event inner core seen isInner taken =>
      exact Or.inr ⟨inner, by simpa using taken⟩
  | _ =>
      exact Or.inl ⟨rfl, rfl⟩

variable
  {allowed : State Thread → Event Thread → Prop}
  {observed : List (Obs Thread)}

/-- A run of the logger is a run of the drain loop. -/
theorem reaches_core
    (reached :
      (machine Thread config).ReachesBy allowed observed state) :
    (DrainLoop.machine Thread LogEntry
        config.policy.queueCapacity).Reaches
      (trace observed) state.core := by
  have initially :
      (machine Thread config).init.core =
        (DrainLoop.machine Thread LogEntry
          config.policy.queueCapacity).init :=
    rfl
  refine reached.project (fun state => state.core) Obs.queue?
    initially ?_
  intro observed emitted state next event _ _ _ taken
  rcases (Step.of_step? taken).core_cases with
    silent | ⟨inner, inside⟩
  · exact Or.inl silent
  · exact Or.inr ⟨inner, trivial, inside⟩

/-- A run of the logger is a run of its queue. -/
theorem reaches_queue
    (reached :
      (machine Thread config).ReachesBy allowed observed state) :
    (Queue.machine (DrainLoop.Party Thread) LogEntry
        config.policy.queueCapacity).ReachesBy
      Queue.EmptyOut (trace observed) state.core.shared :=
  DrainLoop.reaches_queue (reaches_core reached)

end Core

end ConcLogger.Async
