import Mathlib.Algebra.Group.Nat.Defs
import Mathlib.Data.Finset.Range
import ConcLogger.LogEntry

namespace ConcLogger

/-!
# What both modes of `Logger` share

`policy_.async` never changes, so the two sides of every test on it belong to
two machines, one for each mode.  Here is what they have in common: the
members that the constructor fixes, the part of `log` before that test and the
parallel loop of `dispatch`.
-/

/--
The members of `Logger` that its constructor fixes.  Only the size of `sinks_`
is kept: position `i` stands for `sinks_[i]`.
-/
structure LoggerConfig where
  module : String
  sinkCount : Nat
  minLevel : LogLevel := .info
  policy : LoggerPolicy := {}
  deriving Repr, DecidableEq

namespace LoggerConfig

/-- `Logger::log` up to `policy_.async`: filter, then build the entry. -/
def entry?
    (config : LoggerConfig)
    (level : LogLevel)
    (message : String)
    (withThreadDump : Bool)
    (environment : CallEnvironment) :
    Option LogEntry :=
  if level.below config.minLevel then
    none
  else
    some
      (buildEntry config.module level message withThreadDump environment)

/--
The iterations of the parallel loop of `Logger::dispatch`.  They run once each,
in any order, and the region ends when none is left; without sinks there are
none, as after the early return.
-/
def dispatch (config : LoggerConfig) : Finset Nat :=
  Finset.range config.sinkCount

@[simp] theorem mem_dispatch
    {config : LoggerConfig}
    {position : Nat} :
    position ∈ config.dispatch ↔ position < config.sinkCount := by
  simp [dispatch]

end LoggerConfig

/-- `fetch_sub` on a `std::size_t`, which wraps around below zero. -/
def fetchSub (value amount : Nat) : Nat :=
  if amount ≤ value then
    value - amount
  else
    value + 2 ^ 64 - amount

/-- Without a wrap `fetch_sub` subtracts. -/
theorem fetchSub_of_le
    {value amount : Nat}
    (enough : amount ≤ value) :
    fetchSub value amount = value - amount := by
  simp [fetchSub, enough]

/-- Subtracting one does not reach zero from any value but one. -/
theorem fetchSub_one_ne_zero
    {value : Nat}
    (different : value ≠ 1) :
    fetchSub value 1 ≠ 0 := by
  unfold fetchSub
  split <;> omega

end ConcLogger
