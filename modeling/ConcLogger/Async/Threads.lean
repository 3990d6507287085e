import ConcLogger.DrainLoop.Consumer
import ConcLogger.Logger

namespace ConcLogger.Async

open Concurrency

/-!
# Threads of an asynchronous logger

A `Logger` whose `policy_.async` is true.  Any number of client threads call
`log`, `flush` and, once, the destructor; one worker runs `drain_loop`.  Every
access to `queue_` is a step of the drain loop machine, every access to
`pending_` is a step of its own, and a `flush()` caller that found its
predicate false keeps `drained_mutex_` until it has fallen asleep.
-/

/-- A queued entry together with the `log()` call that made it. -/
abbrev Item (Thread : Type) : Type :=
  Queue.Item (DrainLoop.Party Thread) LogEntry

/-- Where a client is; an idle client is outside the logger. -/
inductive Phase (Thread : Type) where
  | idle
  /-- `log` before `pending_.fetch_add`. -/
  | logCounting (entry : LogEntry)
  /-- `log` inside `queue_.push`. -/
  | logPushing
  /-- `push` returned a positive number; `pending_.fetch_sub` is next. -/
  | logSettling (item : Item Thread) (undelivered : Nat)
  /-- The `fetch_sub` reached zero; `drained_cv_.notify_all` is next. -/
  | logNotifying (item : Item Thread)
  /-- `log` before its return; a filtered call has no item. -/
  | logReturning (logged : Option (Item Thread))
  /-- `flush` before it acquires `drained_mutex_`. -/
  | flushLocking
  /-- The predicate of `drained_cv_` was false; the mutex is still held. -/
  | flushBlocking
  /-- Inside `drained_cv_.wait` without the mutex, asleep or woken. -/
  | flushWaiting
  /-- The loop of `flush` over the sinks. -/
  | flushSinks (position : Nat)
  /-- `~Logger` before `queue_.stop()`. -/
  | destroyStop
  /-- `~Logger` inside `queue_.stop()`. -/
  | destroyStopping
  /-- `~Logger` before or inside `worker_.join()`. -/
  | destroyJoining
  /-- The loop of `~Logger` over the sinks. -/
  | destroySinks (position : Nat)

/-- What the worker is doing with the current entry of its batch. -/
inductive Stage where
  /-- Nothing yet. -/
  | ready
  /-- Inside `dispatch`, with the iterations that have not run yet. -/
  | dispatching (todo : Finset Nat)
  /-- After `dispatch`; `pending_.fetch_sub` is next. -/
  | settling
  /-- The `fetch_sub` reached zero; `drained_cv_.notify_all` is next. -/
  | notifying
  deriving DecidableEq

/-- The members of the logger that change, and its threads. -/
structure State (Thread : Type) where
  core : DrainLoop.State Thread LogEntry
  stage : Stage
  pending : Nat
  drainedMutex : Option Thread
  drainedCv : Condvar Thread
  phase : Thread → Phase Thread
  destroyer : Option Thread

/-- Scheduler choices. -/
inductive Event (Thread : Type) where
  | log
      (thread : Thread)
      (level : LogLevel)
      (message : String)
      (withThreadDump : Bool)
      (environment : CallEnvironment)
  | flush (thread : Thread)
  | destroy (thread : Thread)
  /-- The next step of a client outside the queue. -/
  | client (thread : Thread)
  /-- The next step of the worker outside the queue and outside `write`. -/
  | worker
  /-- One iteration of the parallel loop. -/
  | write (position : Nat)
  /-- The next atomic step of a thread inside the queue. -/
  | advance (party : DrainLoop.Party Thread)
  | notifyOne (party chosen : DrainLoop.Party Thread)
  /-- A spurious wakeup inside the queue. -/
  | wakeQueue (party : DrainLoop.Party Thread)
  /-- A spurious wakeup on `drained_cv_`. -/
  | wake (thread : Thread)

/-- The step of the drain loop that an event inside the queue is. -/
def Event.core? {Thread : Type} :
    Event Thread → Option (DrainLoop.Event Thread LogEntry)
  | .advance party => some (.advance party)
  | .notifyOne party chosen => some (.notifyOne party chosen)
  | .wakeQueue party => some (.wake party)
  | _ => none

/-- What can be seen of a run. -/
inductive Obs (Thread : Type) where
  | queue (seen : Queue.Obs (DrainLoop.Party Thread) LogEntry)
  | logCalled (thread : Thread) (level : LogLevel) (message : String)
  /-- `log` has returned; the item is that of a call that was not filtered. -/
  | logReturned (thread : Thread) (logged : Option (Item Thread))
  /-- `sinks_[position]->write(entry)` is complete. -/
  | wrote (position : Nat) (item : Item Thread)
  /-- The worker's `fetch_sub` for an entry has run. -/
  | settled (item : Item Thread)
  | flushCalled (thread : Thread)
  /-- `sinks_[position]->flush()` is complete. -/
  | sinkFlushed (thread : Thread) (position : Nat)
  | flushReturned (thread : Thread)
  | destroyCalled (thread : Thread)
  | destroyReturned (thread : Thread)
  deriving DecidableEq

namespace State

variable {Thread : Type}

/-- The constructor has just started the worker. -/
def initial (config : LoggerConfig) : State Thread where
  core := .initial config.policy.queueCapacity
  stage := .ready
  pending := 0
  drainedMutex := none
  drainedCv := .empty
  phase := fun _ => .idle
  destroyer := none

/-- The entry of the batch that the worker is at. -/
def current? (state : State Thread) : Option (Item Thread) :=
  match state.core.control with
  | .entries _ next => state.core.batch[next]?
  | _ => none

variable [DecidableEq Thread]

/-- Change the phase of one client only. -/
def moveTo
    (state : State Thread)
    (thread : Thread)
    (phase : Phase Thread) :
    State Thread :=
  { state with phase := Function.update state.phase thread phase }

/-- Take one step of the drain loop; the rest of the state is given. -/
def within
    (state : State Thread)
    (event : DrainLoop.Event Thread LogEntry)
    (rest : State Thread) :
    Option (State Thread × List (Obs Thread)) :=
  (state.core.step? event).map fun result =>
    ({ rest with core := result.1 }, result.2.map .queue)

/--
`drained_cv_.wait` from an acquisition of `drained_mutex_` onwards: evaluate
the predicate, then leave the block or prepare to sleep.
-/
def awaitDrained
    (state : State Thread)
    (thread : Thread) :
    Option (State Thread × List (Obs Thread)) :=
  if state.drainedMutex = none then
    if state.pending = 0 then
      some (state.moveTo thread (.flushSinks 0), [])
    else
      some
        ({ state.moveTo thread .flushBlocking with
            drainedMutex := some thread }, [])
  else
    none

/-- The next step of a client outside the queue. -/
def client?
    (config : LoggerConfig)
    (state : State Thread)
    (thread : Thread) :
    Option (State Thread × List (Obs Thread)) :=
  match state.phase thread with
  | .idle =>
      none
  | .logCounting entry =>
      state.within (.push thread entry config.policy.overflowPolicy)
        { state.moveTo thread .logPushing with
          pending := state.pending + 1 }
  | .logPushing =>
      match state.core.shared.phase (.client thread) with
      | .pushReturning item undelivered =>
          state.within (.ret thread)
            (state.moveTo thread
              (if 0 < undelivered then
                .logSettling item undelivered
              else
                .logReturning (some item)))
      | _ =>
          none
  | .logSettling item undelivered =>
      some
        ({ state.moveTo thread
            (if state.pending = undelivered then
              .logNotifying item
            else
              .logReturning (some item)) with
            pending := fetchSub state.pending undelivered }, [])
  | .logNotifying item =>
      some
        ({ state.moveTo thread (.logReturning (some item)) with
            drainedCv := state.drainedCv.notifyAll }, [])
  | .logReturning logged =>
      some (state.moveTo thread .idle, [.logReturned thread logged])
  | .flushLocking =>
      state.awaitDrained thread
  | .flushBlocking =>
      some
        ({ state.moveTo thread .flushWaiting with
            drainedMutex := none
            drainedCv := state.drainedCv.sleep thread }, [])
  | .flushWaiting =>
      if thread ∉ state.drainedCv.waiters then
        state.awaitDrained thread
      else
        none
  | .flushSinks position =>
      if position < config.sinkCount then
        some
          (state.moveTo thread (.flushSinks (position + 1)),
            [.sinkFlushed thread position])
      else
        some (state.moveTo thread .idle, [.flushReturned thread])
  | .destroyStop =>
      state.within (.stop thread)
        (state.moveTo thread .destroyStopping)
  | .destroyStopping =>
      match state.core.shared.phase (.client thread) with
      | .stopReturning =>
          state.within (.ret thread)
            (state.moveTo thread .destroyJoining)
      | _ =>
          none
  | .destroyJoining =>
      match state.core.control with
      | .finished _ =>
          some (state.moveTo thread (.destroySinks 0), [])
      | _ =>
          none
  | .destroySinks position =>
      if position < config.sinkCount then
        some
          (state.moveTo thread (.destroySinks (position + 1)),
            [.sinkFlushed thread position])
      else
        some (state.moveTo thread .idle, [.destroyReturned thread])

omit [DecidableEq Thread] in
/-- What the worker's `fetch_sub` makes visible. -/
def settling (state : State Thread) : List (Obs Thread) :=
  state.current?.toList.map .settled

/-- The next step of the worker outside the queue and outside `write`. -/
def worker?
    (config : LoggerConfig)
    (state : State Thread) :
    Option (State Thread × List (Obs Thread)) :=
  match state.stage with
  | .ready =>
      match state.current? with
      | some _ =>
          some ({ state with stage := .dispatching config.dispatch }, [])
      | none =>
          state.within .worker state
  | .dispatching todo =>
      if todo = ∅ then
        some ({ state with stage := .settling }, [])
      else
        none
  | .settling =>
      if state.pending = 1 then
        some
          ({ state with
              stage := .notifying
              pending := fetchSub state.pending 1 }, state.settling)
      else
        (state.within .worker
          { state with
            stage := .ready
            pending := fetchSub state.pending 1 }).map fun result =>
          (result.1, state.settling ++ result.2)
  | .notifying =>
      state.within .worker
        { state with
          stage := .ready
          drainedCv := state.drainedCv.notifyAll }

omit [DecidableEq Thread] in
/-- One iteration of the parallel loop. -/
def write?
    (state : State Thread)
    (position : Nat) :
    Option (State Thread × List (Obs Thread)) :=
  match state.stage, state.current? with
  | .dispatching todo, some item =>
      if position ∈ todo then
        some
          ({ state with stage := .dispatching (todo.erase position) },
            [.wrote position item])
      else
        none
  | _, _ =>
      none

/-- One step of the logger and its threads. -/
def step?
    (config : LoggerConfig)
    (state : State Thread)
    (event : Event Thread) :
    Option (State Thread × List (Obs Thread)) :=
  match event with
  | .log thread level message withThreadDump environment =>
      match state.phase thread with
      | .idle =>
          some
            (state.moveTo thread
              (match config.entry? level message withThreadDump
                  environment with
              | none => .logReturning none
              | some entry => .logCounting entry),
              [.logCalled thread level message])
      | _ =>
          none
  | .flush thread =>
      match state.phase thread with
      | .idle =>
          some (state.moveTo thread .flushLocking, [.flushCalled thread])
      | _ =>
          none
  | .destroy thread =>
      match state.phase thread, state.destroyer with
      | .idle, none =>
          some
            ({ state.moveTo thread .destroyStop with
                destroyer := some thread }, [.destroyCalled thread])
      | _, _ =>
          none
  | .client thread =>
      state.client? config thread
  | .worker =>
      state.worker? config
  | .write position =>
      state.write? position
  | .advance party =>
      state.within (.advance party) state
  | .notifyOne party chosen =>
      state.within (.notifyOne party chosen) state
  | .wakeQueue party =>
      state.within (.wake party) state
  | .wake thread =>
      (state.drainedCv.wake? thread).map fun drainedCv =>
        ({ state with drainedCv := drainedCv }, [])

end State

/-- An asynchronous logger as a machine. -/
def machine
    (Thread : Type)
    [DecidableEq Thread]
    (config : LoggerConfig) :
    Machine (State Thread) (Event Thread) (Obs Thread) where
  init := .initial config
  step? := State.step? config

end ConcLogger.Async
