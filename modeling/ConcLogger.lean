import ConcLogger.Async.Flush
import ConcLogger.Async.Origins
import ConcLogger.Async.Schedules
import ConcLogger.Async.Shutdown
import ConcLogger.Async.Wakeups
import ConcLogger.Concurrency.Ledger
import ConcLogger.DrainLoop.Delivery
import ConcLogger.DrainLoop.Stranding
import ConcLogger.Queue.Accounting
import ConcLogger.Queue.Conservation
import ConcLogger.Refinement
import ConcLogger.Concurrency.Window
import ConcLogger.Queue.Overflow
import ConcLogger.Async.Exceptions
import ConcLogger.Async.Leaks
import ConcLogger.Sinks.Format
import ConcLogger.Sinks.Threads
import ConcLogger.Sinks.Console
import ConcLogger.Sinks.Timestamps
import ConcLogger.Concurrency.Fairness
import ConcLogger.DrainLoop.Termination
import ConcLogger.Queue.Stopping
import ConcLogger.Async.Termination
import ConcLogger.Concurrency.Linearizable
import ConcLogger.Queue.Linearizability
import ConcLogger.Queue.Work
import ConcLogger.Queue.Rest
import ConcLogger.DrainLoop.Work
import ConcLogger.Async.Work
import ConcLogger.Async.Rest
import ConcLogger.Async.Liveness
import ConcLogger.Async.Dropping
import ConcLogger.Sync.Writes
import ConcLogger.Sync.Shutdown
import ConcLogger.Async.Completion
import ConcLogger.Async.Linearizability
import ConcLogger.Outcomes
import ConcLogger.Text.Delimited
import ConcLogger.Sinks.Files
import ConcLogger.Sinks.Records
import ConcLogger.Concurrency.Coupling
import ConcLogger.Async.Calls
import ConcLogger.FileLogger.Threads
import ConcLogger.FileLogger.Invariant
import ConcLogger.FileLogger.Durability
import ConcLogger.FileLogger.Shutdown
import ConcLogger.FileLogger.Liveness
