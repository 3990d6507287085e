import Mathlib.Data.Finset.Erase
import Mathlib.Logic.Function.Basic
import ConcLogger.Concurrency.Machine
import ConcLogger.Programs

namespace ConcLogger.Sync

open Concurrency

/-!
# Threads of a synchronous logger

A `Logger` whose `policy_.async` is false.  There is no worker and no queue:
`log` runs `dispatch` in the calling thread, `flush` and the destructor go to
the sinks at once.  One completed `write` is one step, so that the loops of
several `dispatch` calls interleave at every position.
-/

/-- Where a client is; an idle client is outside the logger. -/
inductive Phase where
  | idle
  /-- Inside `dispatch`, with the iterations that have not run yet. -/
  | dispatching (entry : LogEntry) (todo : Finset Nat)
  /-- `log` before its return. -/
  | logReturning
  /-- The loop of `flush` over the sinks. -/
  | flushSinks (position : Nat)
  /-- The loop of `~Logger` over the sinks. -/
  | destroySinks (position : Nat)
  deriving DecidableEq

/-- The clients; the members of the logger do not change. -/
structure State (Thread : Type) where
  phase : Thread → Phase
  destroyer : Option Thread

/-- Scheduler choices. -/
inductive Event (Thread : Type) where
  | log
      (thread : Thread)
      (level : LogLevel)
      (message : String)
      (withThreadDump : Bool)
      (environment : CallEnvironment)
  | flush (thread : Thread)
  | destroy (thread : Thread)
  /-- One iteration of the parallel loop of a thread's `dispatch`. -/
  | write (thread : Thread) (position : Nat)
  /-- The next step of a client outside `write`. -/
  | client (thread : Thread)

/-- What can be seen of a run. -/
inductive Obs (Thread : Type) where
  | logCalled (thread : Thread) (level : LogLevel) (message : String)
  | logReturned (thread : Thread)
  /-- `sinks_[position]->write(entry)` is complete. -/
  | wrote (position : Nat) (entry : LogEntry)
  | flushCalled (thread : Thread)
  /-- `sinks_[position]->flush()` is complete. -/
  | sinkFlushed (thread : Thread) (position : Nat)
  | flushReturned (thread : Thread)
  | destroyCalled (thread : Thread)
  | destroyReturned (thread : Thread)
  deriving DecidableEq

namespace State

variable {Thread : Type}

/-- A new logger that no thread is using. -/
def initial : State Thread where
  phase := fun _ => .idle
  destroyer := none

variable [DecidableEq Thread]

/-- Change the phase of one client only. -/
def moveTo
    (state : State Thread)
    (thread : Thread)
    (phase : Phase) :
    State Thread :=
  { state with phase := Function.update state.phase thread phase }

/-- One iteration of the parallel loop of a thread's `dispatch`. -/
def write?
    (state : State Thread)
    (thread : Thread)
    (position : Nat) :
    Option (State Thread × List (Obs Thread)) :=
  match state.phase thread with
  | .dispatching entry todo =>
      if position ∈ todo then
        some
          (state.moveTo thread
            (.dispatching entry (todo.erase position)),
            [.wrote position entry])
      else
        none
  | _ =>
      none

/-- The next step of a client outside `write`. -/
def client?
    (config : LoggerConfig)
    (state : State Thread)
    (thread : Thread) :
    Option (State Thread × List (Obs Thread)) :=
  match state.phase thread with
  | .idle =>
      none
  | .dispatching _ todo =>
      if todo = ∅ then
        some (state.moveTo thread .logReturning, [])
      else
        none
  | .logReturning =>
      some (state.moveTo thread .idle, [.logReturned thread])
  | .flushSinks position =>
      if position < config.sinkCount then
        some
          (state.moveTo thread (.flushSinks (position + 1)),
            [.sinkFlushed thread position])
      else
        some (state.moveTo thread .idle, [.flushReturned thread])
  | .destroySinks position =>
      if position < config.sinkCount then
        some
          (state.moveTo thread (.destroySinks (position + 1)),
            [.sinkFlushed thread position])
      else
        some (state.moveTo thread .idle, [.destroyReturned thread])

/-- One step of the logger and its clients. -/
def step?
    (config : LoggerConfig)
    (state : State Thread)
    (event : Event Thread) :
    Option (State Thread × List (Obs Thread)) :=
  match event with
  | .log thread level message withThreadDump environment =>
      match state.phase thread with
      | .idle =>
          some
            (state.moveTo thread
              (match config.entry? level message withThreadDump
                  environment with
              | none => .logReturning
              | some entry => .dispatching entry config.dispatch),
              [.logCalled thread level message])
      | _ =>
          none
  | .flush thread =>
      match state.phase thread with
      | .idle =>
          some (state.moveTo thread (.flushSinks 0), [.flushCalled thread])
      | _ =>
          none
  | .destroy thread =>
      match state.phase thread, state.destroyer with
      | .idle, none =>
          some
            ({ state.moveTo thread (.destroySinks 0) with
                destroyer := some thread }, [.destroyCalled thread])
      | _, _ =>
          none
  | .write thread position =>
      state.write? thread position
  | .client thread =>
      state.client? config thread

end State

/-- A synchronous logger as a machine. -/
def machine
    (Thread : Type)
    [DecidableEq Thread]
    (config : LoggerConfig) :
    Machine (State Thread) (Event Thread) (Obs Thread) where
  init := .initial
  step? := State.step? config

/--
Programs of `log()` calls: `~Logger` begins when no call is under way, no call
begins later, and nobody calls `flush`.
-/
def Scripted
    {Thread : Type}
    (state : State Thread) : Event Thread → Prop
  | .destroy _ => ∀ thread, state.phase thread = .idle
  | .log _ _ _ _ _ => state.destroyer = none
  | .flush _ => False
  | _ => True

section Projections

variable {Thread : Type}

/-- The `log()` call of an observation. -/
@[simp] def Obs.called? : Obs Thread → Option (Thread × Request)
  | .logCalled thread level message =>
      some (thread, { level := level, message := message })
  | _ => none

/-- The entry of a write at a position. -/
@[simp] def Obs.wrote? (position : Nat) :
    Obs Thread → Option LogEntry
  | .wrote written entry =>
      if written = position then some entry else none
  | _ => none

/-- The `log()` calls of a run, in order. -/
def calls (observed : List (Obs Thread)) : List (Thread × Request) :=
  observed.filterMap Obs.called?

/-- The entries written through `sinks_[position]`, in order. -/
def written
    (position : Nat)
    (observed : List (Obs Thread)) :
    List LogEntry :=
  observed.filterMap (Obs.wrote? position)

variable (position : Nat) (first second : List (Obs Thread))

@[simp] theorem calls_append :
    calls (first ++ second) = calls first ++ calls second :=
  List.filterMap_append

@[simp] theorem written_append :
    written position (first ++ second) =
      written position first ++ written position second :=
  List.filterMap_append

end Projections

end ConcLogger.Sync
