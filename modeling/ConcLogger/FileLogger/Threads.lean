import ConcLogger.Async.Calls
import ConcLogger.Concurrency.Coupling
import ConcLogger.Concurrency.Lanes
import ConcLogger.Sinks.Files

namespace ConcLogger.FileLogger

open Concurrency
open Sinks

/-!
# An asynchronous logger and one of its file sinks

`sinks_` may hold one `FileSink` at several positions, next to other sinks, and
other parts of the program may have it as well.  The logger is coupled to that
sink: an iteration of the parallel loop at such a position is inside `write`
before it is complete, and a client in a loop over the sinks is inside `flush`.
-/

/-- Whoever is inside the sink. -/
inductive Caller (Thread : Type) where
  /-- The iteration of the parallel loop of `dispatch` at a position. -/
  | iteration (position : Nat)
  /-- A client of the logger inside `flush` or `~Logger`. -/
  | client (thread : Thread)
  /-- Anybody else who has the sink. -/
  | outsider (number : Nat)
  deriving DecidableEq

/-- The logger next to the sink. -/
abbrev State (Thread : Type) : Type :=
  Async.State Thread × FileSink.State (Caller Thread)

/-- Scheduler choices. -/
abbrev Event (Thread : Type) : Type :=
  Coupled (Async.Event Thread) (FileSink.Event (Caller Thread))

/-- What can be seen of a run. -/
abbrev Obs (Thread : Type) : Type :=
  Async.Obs Thread ⊕ FileSink.Obs (Caller Thread)

/-- An asynchronous logger and a file sink as one machine. -/
def machine
    (Thread : Type)
    [DecidableEq Thread]
    (config : LoggerConfig) :
    Machine (State Thread) (Event Thread) (Obs Thread) :=
  (Async.machine Thread config).couple (FileSink.machine (Caller Thread))

/-- The positions of `sinks_` at which the sink is. -/
abbrev Positions : Type :=
  Nat → Bool

/-- Who is inside the sink when a step of the logger completes a call on it. -/
def caller?
    {Thread : Type}
    (config : LoggerConfig)
    (uses : Positions)
    (logger : Async.State Thread) :
    Async.Event Thread → Option (Caller Thread)
  | .write position =>
      if uses position then some (.iteration position) else none
  | .client thread =>
      match logger.phase thread with
      | .flushSinks position | .destroySinks position =>
          if position < config.sinkCount && uses position then
            some (.client thread)
          else
            none
      | _ =>
          none
  | _ =>
      none

/-- The next step of the thread is its return from `write` or from `flush`. -/
def returns : FileSink.Phase → Bool
  | .inserting _ _ [] | .flushUnlocking => true
  | _ => false

/--
When the logger and the sink may take their steps: a call that the logger makes
on the sink is complete when both are, and until then the sink alone moves.
Others may call the sink as they like.
-/
def Permitted
    {Thread : Type}
    [DecidableEq Thread]
    (config : LoggerConfig)
    (uses : Positions)
    (allowed : Async.State Thread → Async.Event Thread → Prop)
    (state : State Thread) :
    Event Thread → Prop
  | .first event =>
      allowed state.1 event ∧ caller? config uses state.1 event = none
  | .second (.write caller entry _) =>
      match caller with
      | .iteration position =>
          uses position = true ∧
            (state.1.writing? position).map Queue.Item.value = some entry
      | .client _ => False
      | .outsider _ => True
  | .second (.flush caller) =>
      match caller with
      | .iteration _ => False
      | .client thread =>
          caller? config uses state.1 (.client thread) = some caller
      | .outsider _ => True
  | .second (.advance caller) =>
      match caller with
      | .outsider _ => True
      | _ => returns (state.2.phase caller) = false
  | .second (.pass _) =>
      True
  | .both event (.advance caller) =>
      allowed state.1 event ∧
        caller? config uses state.1 event = some caller ∧
        returns (state.2.phase caller) = true
  | .both _ _ =>
      False

instance decidablePermitted
    {Thread : Type}
    [DecidableEq Thread]
    (config : LoggerConfig)
    (uses : Positions)
    (allowed : Async.State Thread → Async.Event Thread → Prop)
    [∀ state event, Decidable (allowed state event)]
    (state : State Thread) :
    ∀ event, Decidable (Permitted config uses allowed state event)
  | .first event =>
      inferInstanceAs (Decidable (allowed state.1 event ∧ _))
  | .second (.write (.iteration position) entry _) =>
      inferInstanceAs (Decidable (uses position = true ∧ _ = some entry))
  | .second (.write (.client _) _ _) | .second (.flush (.iteration _)) =>
      .isFalse id
  | .second (.write (.outsider _) _ _) | .second (.flush (.outsider _))
  | .second (.advance (.outsider _)) | .second (.pass _) =>
      .isTrue trivial
  | .second (.flush (.client thread)) =>
      inferInstanceAs
        (Decidable
          (caller? config uses state.1 (.client thread) =
            some (.client thread)))
  | .second (.advance (.iteration position)) =>
      inferInstanceAs
        (Decidable (returns (state.2.phase (.iteration position)) = false))
  | .second (.advance (.client thread)) =>
      inferInstanceAs
        (Decidable (returns (state.2.phase (.client thread)) = false))
  | .both event (.advance caller) =>
      inferInstanceAs
        (Decidable
          (allowed state.1 event ∧
            caller? config uses state.1 event = some caller ∧
            returns (state.2.phase caller) = true))
  | .both _ (.write _ _ _) | .both _ (.flush _) | .both _ (.pass _) =>
      .isFalse id

end ConcLogger.FileLogger
