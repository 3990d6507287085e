import ConcLogger.Concurrency.Lanes
import ConcLogger.Logger

namespace ConcLogger

open Concurrency

/-!
# Programs of `log()` calls

Each thread runs a list of `log(level, msg)` calls.  A schedule is an order in
which the calls of all threads take effect one after another, and its lines
are what a sink shows of the calls that are not filtered.
-/

/-- A `log(level, msg)` call as the program has it. -/
structure Request where
  level : LogLevel
  message : String
  deriving Repr, DecidableEq

/-- A call with its third argument and what it reads from outside. -/
structure Call extends Request where
  withThreadDump : Bool
  environment : CallEnvironment
  deriving Repr, DecidableEq

/-- The level, the module and the message of an entry. -/
structure Line where
  level : LogLevel
  module : String
  message : String
  deriving Repr, DecidableEq

/-- What a sink is given of an entry, but for its time and its thread. -/
def LogEntry.line (entry : LogEntry) : Line where
  level := entry.level
  module := entry.module
  message := entry.message

namespace LoggerConfig

/-- The same logger without a worker. -/
def synchronous (config : LoggerConfig) : LoggerConfig :=
  { config with policy := { config.policy with async := false } }

/-- The entry of a call, if the call is not filtered. -/
def callEntry?
    (config : LoggerConfig)
    (call : Call) :
    Option LogEntry :=
  config.entry? call.level call.message call.withThreadDump
    call.environment

/-- The line of a request, if it is at or above the minimum level. -/
def line?
    (config : LoggerConfig)
    (request : Request) :
    Option Line :=
  if request.level.below config.minLevel then
    none
  else
    some
      { level := request.level
        module := config.module
        message := request.message }

/-- The line of a call does not depend on what it reads from outside. -/
theorem map_line_callEntry?
    (config : LoggerConfig)
    (call : Call) :
    (config.callEntry? call).map LogEntry.line =
      config.line? call.toRequest := by
  unfold callEntry? entry? line?
  split <;> rfl

/-- The entries of a schedule with their threads. -/
def admitted
    {Thread : Type}
    (config : LoggerConfig)
    (schedule : List (Thread × Call)) :
    List (Thread × LogEntry) :=
  schedule.filterMap fun scheduled =>
    (config.callEntry? scheduled.2).map (Prod.mk scheduled.1)

end LoggerConfig

/-- The requests of a schedule with their threads. -/
def requests
    {Thread : Type}
    (schedule : List (Thread × Call)) :
    List (Thread × Request) :=
  schedule.map fun scheduled => (scheduled.1, scheduled.2.toRequest)

@[simp] theorem requests_append
    {Thread : Type}
    (first second : List (Thread × Call)) :
    requests (first ++ second) = requests first ++ requests second :=
  List.map_append

namespace LoggerConfig

variable
  {Thread : Type}
  (config : LoggerConfig)
  (first second : List (Thread × Call))

@[simp] theorem admitted_append :
    config.admitted (first ++ second) =
      config.admitted first ++ config.admitted second :=
  List.filterMap_append

/-- A filtered call admits nothing. -/
theorem admitted_singleton_of_none
    {thread : Thread}
    {call : Call}
    (filtered : config.callEntry? call = none) :
    config.admitted [(thread, call)] = [] := by
  simp [admitted, filtered]

/-- A call that is not filtered admits its entry. -/
theorem admitted_singleton_of_some
    {thread : Thread}
    {call : Call}
    {entry : LogEntry}
    (made : config.callEntry? call = some entry) :
    config.admitted [(thread, call)] = [(thread, entry)] := by
  simp [admitted, made]

/-- What a thread contributes to a schedule are the lines of its requests. -/
theorem map_line_lane_admitted
    [DecidableEq Thread]
    (thread : Thread)
    (schedule : List (Thread × Call)) :
    (lane thread (config.admitted schedule)).map LogEntry.line =
      (lane thread (requests schedule)).filterMap config.line? := by
  have entries :
      lane thread (config.admitted schedule) =
        (lane thread schedule).filterMap config.callEntry? :=
    lane_filterMap config.callEntry? thread schedule
  have called :
      lane thread (requests schedule) =
        (lane thread schedule).map Call.toRequest :=
    lane_map Call.toRequest thread schedule
  rw [entries, called, List.map_filterMap, List.filterMap_map]
  congr 1
  funext call
  exact config.map_line_callEntry? call

/-- The lines of a schedule interleave the lines of its threads. -/
theorem interleaving_admitted
    [DecidableEq Thread]
    (schedule : List (Thread × Call)) :
    Interleaving
      (fun thread =>
        (lane thread (requests schedule)).filterMap config.line?)
      ((config.admitted schedule).map fun scheduled =>
        scheduled.2.line) := by
  refine ⟨(requests schedule).filterMap fun scheduled =>
    (config.line? scheduled.2).map (Prod.mk scheduled.1), ?_, ?_⟩
  · intro thread
    exact lane_filterMap config.line? thread (requests schedule)
  · simp only [requests, admitted, List.filterMap_map,
      List.map_filterMap]
    congr 1
    funext scheduled
    simp [← map_line_callEntry?, Function.comp_def]

end LoggerConfig

end ConcLogger
