import Mathlib.Data.List.Basic

namespace ConcLogger

/-!
# Log levels, policies and entries

Translation of `log_level.hpp`, `policy.hpp`, `log_entry.hpp` and of
`Logger::capture_thread_dump`.  The clock and the OpenMP runtime are outside
the program: a `log()` call receives what they answer as a `CallEnvironment`.
-/

/-- `enum class LogLevel : int`. -/
inductive LogLevel where
  | trace
  | debug
  | info
  | warn
  | error
  | fatal
  deriving Repr, DecidableEq

namespace LogLevel

/-- The enumerator values, which `operator<` on levels compares. -/
def toInt : LogLevel → Int
  | .trace => 0
  | .debug => 1
  | .info => 2
  | .warn => 3
  | .error => 4
  | .fatal => 5

/-- `level < min_level_`, the test with which `log` filters. -/
def below (level minLevel : LogLevel) : Bool :=
  decide (level.toInt < minLevel.toInt)

end LogLevel

/-- `enum class OverflowPolicy`. -/
inductive OverflowPolicy where
  | dropNewest
  | dropOldest
  | block
  deriving Repr, DecidableEq

/-- `struct LoggerPolicy` with its default member values. -/
structure LoggerPolicy where
  queueCapacity : Nat := 4096
  overflowPolicy : OverflowPolicy := .dropNewest
  async : Bool := true
  deriving Repr, DecidableEq

/-- `struct LogEntry`; the timestamp counts clock ticks since the epoch. -/
structure LogEntry where
  level : LogLevel
  module : String
  message : String
  timestamp : Int
  ompThreadId : Int
  threadDump : String
  deriving Repr, DecidableEq

/-- What the OpenMP runtime answers to the thread that calls `log`. -/
structure OmpEnvironment where
  threadNum : Int
  numThreads : Int
  maxThreads : Int
  inParallel : Bool
  level : Int
  activeLevel : Int
  deriving Repr, DecidableEq

/-- Everything a `log()` call reads from outside the program. -/
structure CallEnvironment where
  now : Int
  omp : OmpEnvironment
  deriving Repr, DecidableEq

/-- `Logger::capture_thread_dump`. -/
def captureThreadDump (omp : OmpEnvironment) : String :=
  "\n  [thread-dump]" ++
    " omp_thread=" ++ toString omp.threadNum ++
    " num_threads=" ++ toString omp.numThreads ++
    " max_threads=" ++ toString omp.maxThreads ++
    " in_parallel=" ++ (if omp.inParallel then "yes" else "no") ++
    " nesting_level=" ++ toString omp.level ++
    " active_level=" ++ toString omp.activeLevel

/-- The entry that `Logger::log` fills in; the dump stays empty unless asked for. -/
def buildEntry
    (module : String)
    (level : LogLevel)
    (message : String)
    (withThreadDump : Bool)
    (environment : CallEnvironment) :
    LogEntry where
  level := level
  module := module
  message := message
  timestamp := environment.now
  ompThreadId := environment.omp.threadNum
  threadDump :=
    if withThreadDump then captureThreadDump environment.omp else ""

end ConcLogger
