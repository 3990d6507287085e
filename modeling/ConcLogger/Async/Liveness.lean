import ConcLogger.Async.Rest
import ConcLogger.Async.Work

namespace ConcLogger.Async

open Concurrency

/-!
# Calls return

Steps that are paid for come to an end once nobody calls the logger any more,
and a scheduler that treats every thread fairly leaves nobody behind who could
still move.  What is left is a logger at rest, so every call has returned that
is not asleep on `drained_cv_`.
-/

variable
  {Thread : Type}
  [DecidableEq Thread]
  [Fintype Thread]
  {config : LoggerConfig}

/-- From a position on there are neither calls nor spurious wakeups. -/
def QuietFrom
    (execution : Execution (machine Thread config))
    (start : Nat) : Prop :=
  ∀ position event,
    start ≤ position →
    execution.event position = some event →
    event.party? ≠ none

/-- A quiet execution comes to rest. -/
private theorem comes_to_rest
    {observed : List (Obs Thread)}
    (execution : Execution (machine Thread config))
    (reached : (machine Thread config).Reaches observed (execution.state 0))
    {start : Nat}
    (quiet : QuietFrom execution start)
    (fair : ∀ party, execution.WeaklyFair Event.party? party) :
    ∃ finish,
      start ≤ finish ∧
        (∀ position,
          finish ≤ position →
          execution.event position = none ∧
            execution.state position = execution.state finish) ∧
        AtRest config (execution.state finish) := by
  obtain ⟨finish, later, silent, stuck⟩ :=
    execution.comes_to_rest Event.party? (State.work config)
      (by
        intro position later happens
        rcases execution.step position with
          ⟨chosen, isChosen, taken⟩ | ⟨nothing, _⟩
        · have before := execution.reaches_record reached position
          have paid :=
            (Step.of_step? taken).work_lt (.of_reaches before)
              (.of_reaches (reaches_core before))
          rwa [Event.price_eq_zero _
            (quiet position chosen later isChosen), Nat.add_zero] at paid
        · exact (happens nothing).elim)
  exact ⟨finish, later, silent, fun party => stuck party (fair party)⟩

/--
Every call returns.  If from some position on nobody calls the logger and
nobody is woken for no reason, a fair execution comes to rest: every `log()`
call and every `~Logger` has returned, and a `flush()` call that has not is
asleep on `drained_cv_`.
-/
theorem calls_return
    (positive : 0 < config.policy.queueCapacity)
    {observed : List (Obs Thread)}
    (execution : Execution (machine Thread config))
    (reached : (machine Thread config).Reaches observed (execution.state 0))
    {start : Nat}
    (quiet : QuietFrom execution start)
    (fair : ∀ party, execution.WeaklyFair Event.party? party) :
    ∃ finish,
      start ≤ finish ∧
        (∀ position,
          finish ≤ position →
          execution.event position = none ∧
            execution.state position = execution.state finish) ∧
        Resting (execution.state finish) := by
  obtain ⟨finish, later, silent, rest⟩ :=
    comes_to_rest execution reached quiet fair
  exact ⟨finish, later, silent,
    rest.resting positive (execution.reaches_record reached finish)⟩

/--
Every `flush()` call of a live logger of positive capacity returns as well if
no wakeup is lost, and by then all that was logged has been written on all
sinks or discarded by the overflow policy.
-/
theorem flushes_return
    (positive : 0 < config.policy.queueCapacity)
    {observed : List (Obs Thread)}
    (execution : Execution (machine Thread config))
    (reached :
      (machine Thread config).ReachesBy KeptAlive observed
        (execution.state 0))
    (kept :
      ∀ position event,
        execution.event position = some event →
        KeptAlive (execution.state position) event)
    {start : Nat}
    (quiet : QuietFrom execution start)
    (fair : ∀ party, execution.WeaklyFair Event.party? party) :
    ∃ finish,
      start ≤ finish ∧
        (∀ position,
          finish ≤ position →
          execution.event position = none ∧
            execution.state position = execution.state finish) ∧
        (∀ thread, (execution.state finish).phase thread = .idle) ∧
        AllAccounted config (observed ++ execution.record finish)
          (observed ++ execution.record finish) := by
  obtain ⟨finish, later, silent, rest⟩ :=
    comes_to_rest execution (reached.mono fun _ => trivial) quiet fair
  have atFinish := execution.reachesBy_record reached kept finish
  obtain ⟨idle, _, zero⟩ :=
    (rest.resting positive atFinish).idle_of_kept atFinish
  exact ⟨finish, later, silent, idle,
    allAccounted_of_pending_zero positive
      (atFinish.mono fun permitted => permitted.2) zero⟩

/-! ## A log and a flush at once -/

/-- Two calls at the same time; then everybody does what is left to do. -/
def callsAtOnce (caller flusher : Thread) : List (Event Thread) :=
  [.log caller .warn "kept" false ⟨0, ⟨0, 1, 1, false, 0, 0⟩⟩,
    .flush flusher,
    .client caller, .advance (.client caller),
    .notifyOne (.client caller) .worker, .client caller, .client caller,
    .client flusher, .client flusher,
    .worker, .advance .worker, .advance .worker, .worker,
    .worker, .write 0, .worker, .worker, .worker,
    .client flusher, .client flusher, .client flusher,
    .worker, .worker, .advance .worker, .advance .worker]

/-- The schedule is followed for ever; after its end nothing happens. -/
private def atOnce
    (caller flusher : Thread) :
    Execution (machine Thread narrow) :=
  replay (machine Thread narrow) ((callsAtOnce caller flusher)[·]?)
    (.initial narrow)

/-- Where the schedule has ended. -/
private theorem atOnce_ended :
    ∀ position,
      (callsAtOnce (0 : Fin 2) 1).length ≤ position →
      (callsAtOnce (0 : Fin 2) 1)[position]? = none :=
  fun _ => List.getElem?_eq_none

/-- After the two calls everything is a step of somebody. -/
private theorem atOnce_quiet : QuietFrom (atOnce (0 : Fin 2) 1) 2 := by
  intro position event later happens
  have scheduled := replay_event happens
  have owned :
      ∀ event ∈ (callsAtOnce (0 : Fin 2) 1).drop 2,
        event.party?.isSome = true := by
    decide
  have isLater : event ∈ (callsAtOnce (0 : Fin 2) 1).drop 2 := by
    apply List.mem_of_getElem? (i := position - 2)
    rw [List.getElem?_drop, Nat.add_sub_cancel' later]
    exact scheduled
  exact Option.isSome_iff_ne_none.mp (owned event isLater)

/-- At the end nobody is asleep but the worker. -/
private theorem atOnce_resting :
    Resting
        ((atOnce (0 : Fin 2) 1).state
          (callsAtOnce (0 : Fin 2) 1).length) ∧
      .flushReturned 1 ∈
        (atOnce (0 : Fin 2) 1).record
          (callsAtOnce (0 : Fin 2) 1).length := by
  have feature :
      (let finish := (callsAtOnce (0 : Fin 2) 1).length
      let state := (atOnce (0 : Fin 2) 1).state finish
      let seen := (atOnce (0 : Fin 2) 1).record finish
      decide (.flushReturned 1 ∈ seen) &&
        decide (∀ thread, state.phase thread = .idle) &&
        state.core.shared.mutex.isNone &&
        state.drainedMutex.isNone &&
        decide (.worker ∈ state.core.shared.notEmpty.waiters) &&
        !state.core.shared.queue.stopped &&
        state.core.shared.queue.data.isEmpty &&
        state.unsettled.isEmpty &&
        state.pending == 0) = true := by
    decide +kernel
  simp only [Bool.and_eq_true, decide_eq_true_eq, beq_iff_eq,
    Option.isNone_iff_eq_none, Bool.not_eq_true', List.isEmpty_iff]
    at feature
  obtain ⟨⟨⟨⟨⟨⟨⟨⟨flushed, idle⟩, free⟩, drainedFree⟩, asleep⟩, running⟩,
    nothing⟩, settled⟩, zero⟩ := feature
  exact ⟨⟨fun thread => Or.inl (idle thread), ⟨free, drainedFree⟩,
    Or.inr ⟨asleep, running, nothing, settled, zero⟩⟩, flushed⟩

/-- Everybody is treated fairly. -/
private theorem atOnce_fair
    (party : DrainLoop.Party (Fin 2)) :
    (atOnce (0 : Fin 2) 1).WeaklyFair Event.party? party :=
  replay_weaklyFair atOnce_ended
    (atOnce_resting.1.atRest
      ((atOnce (0 : Fin 2) 1).reaches_record .init _) party)

/-- The last owed notification is not lost, and nobody calls `~Logger`. -/
private theorem atOnce_kept
    (position : Nat)
    (event : Event (Fin 2))
    (happens : (atOnce (0 : Fin 2) 1).event position = some event) :
    KeptAlive ((atOnce (0 : Fin 2) 1).state position) event := by
  have scheduled := replay_event happens
  have inside : position < (callsAtOnce (0 : Fin 2) 1).length :=
    (List.getElem?_eq_some_iff.mp scheduled).1
  have kept :
      ∀ position < (callsAtOnce (0 : Fin 2) 1).length,
        ((callsAtOnce (0 : Fin 2) 1)[position]?).all
          (fun event =>
            KeptAlive ((atOnce (0 : Fin 2) 1).state position) event) =
          true := by
    decide +kernel
  simpa [scheduled] using kept position inside

/-- After two calls at once everybody has come back. -/
theorem calls_return_of_calls_at_once :
    ∃ execution : Execution (machine (Fin 2) narrow),
      (machine (Fin 2) narrow).Reaches [] (execution.state 0) ∧
        execution.event 0 ≠ none ∧
        QuietFrom execution 2 ∧
        (∀ party, execution.WeaklyFair Event.party? party) ∧
        ∃ finish, Resting (execution.state finish) := by
  obtain ⟨finish, _, _, resting⟩ :=
    calls_return (by decide) (atOnce 0 1) .init atOnce_quiet atOnce_fair
  exact ⟨atOnce 0 1, .init, by decide, atOnce_quiet, atOnce_fair, finish,
    resting⟩

/-- The flusher sleeps, is notified and returns, and the entry is written. -/
theorem flushes_return_of_calls_at_once :
    ∃ execution : Execution (machine (Fin 2) narrow),
      (machine (Fin 2) narrow).ReachesBy KeptAlive []
          (execution.state 0) ∧
        QuietFrom execution 2 ∧
        (∀ party, execution.WeaklyFair Event.party? party) ∧
        ∃ finish,
          (∀ thread, (execution.state finish).phase thread = .idle) ∧
            AllAccounted narrow (execution.record finish)
              (execution.record finish) := by
  obtain ⟨finish, _, _, idle, written⟩ :=
    flushes_return (by decide) (atOnce 0 1) .init atOnce_kept atOnce_quiet
      atOnce_fair
  exact ⟨atOnce 0 1, .init, atOnce_quiet, atOnce_fair, finish, idle, written⟩

end ConcLogger.Async
