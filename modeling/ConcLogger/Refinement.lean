import ConcLogger.Async.Schedules
import ConcLogger.Sync.Schedules

namespace ConcLogger

open Concurrency

/-!
# Blocking asynchronous mode refines synchronous mode

Both modes are asked for the same: run a program of `log()` calls in each
thread, destroy the logger after the last of them has returned, and look at
the lines that each sink was given.  Whatever the asynchronous logger with
`OverflowPolicy::BLOCK` can give, the synchronous logger can give as well.
-/

variable {Thread : Type} [DecidableEq Thread]

/--
Some run of the programs, ended by `~Logger`, writes the lines of the outcome
at each position.
-/
def Produces
    (config : LoggerConfig)
    (programs : Thread → List Request)
    (outcome : Nat → List Line) : Prop :=
  if config.policy.async then
    ∃ observed state destroyer,
      (Async.machine Thread config).ReachesBy Async.Scripted
          observed state ∧
        .destroyReturned destroyer ∈ observed ∧
        (∀ thread,
          lane thread (Async.calls observed) = programs thread) ∧
        ∀ position,
          position < config.sinkCount →
          (Async.written position observed).map
              (fun item => item.value.line) =
            outcome position
  else
    ∃ observed state destroyer,
      (Sync.machine Thread config).ReachesBy Sync.Scripted
          observed state ∧
        .destroyReturned destroyer ∈ observed ∧
        (∀ thread,
          lane thread (Sync.calls observed) = programs thread) ∧
        ∀ position,
          position < config.sinkCount →
          (Sync.written position observed).map LogEntry.line =
            outcome position

/-- A synchronous logger produces what a schedule of the programs admits. -/
theorem produces_synchronous
    {config : LoggerConfig}
    {programs : Thread → List Request}
    {outcome : Nat → List Line}
    (destroyer : Thread)
    (schedule : List (Thread × Call))
    (lanes :
      ∀ thread, lane thread (requests schedule) = programs thread)
    (lines :
      ∀ position,
        position < config.sinkCount →
        (config.admitted schedule).map (fun entry => entry.2.line) =
          outcome position) :
    Produces config.synchronous programs outcome := by
  obtain ⟨observed, reached, called, wrote⟩ :=
    Sync.exists_schedule_run config.synchronous schedule
  obtain ⟨emitted, final, ended, returned, noCalls, noWrites⟩ :=
    Sync.exists_destroy_run destroyer reached
  refine ⟨observed ++ emitted, final, destroyer, ended,
    List.mem_append_right _ returned, ?_, ?_⟩
  · intro thread
    rw [Sync.calls_append, noCalls, List.append_nil, called,
      lanes thread]
  · intro position inside
    rw [Sync.written_append, noWrites position, List.append_nil,
      wrote position inside, List.map_map]
    exact lines position inside

/--
Every outcome of an asynchronous logger that blocks on overflow is an outcome
of the synchronous logger for the same programs.  At every position it is an
interleaving of the threads' messages at or above the minimum level, each
thread's in program order.
-/
theorem blocking_mode_refines_synchronous_mode
    {config : LoggerConfig}
    {programs : Thread → List Request}
    {outcome : Nat → List Line}
    (isAsync : config.policy.async = true)
    (block : config.policy.overflowPolicy = .block)
    (positive : 0 < config.policy.queueCapacity)
    (produced : Produces config programs outcome) :
    Produces config.synchronous programs outcome ∧
      ∀ position,
        position < config.sinkCount →
        Interleaving
          (fun thread => (programs thread).filterMap config.line?)
          (outcome position) := by
  rw [Produces, if_pos isAsync] at produced
  obtain ⟨observed, state, destroyer, reached, returned, lanes, lines⟩ :=
    produced
  obtain ⟨schedule, sameLanes, sameEntries⟩ :=
    Async.exists_schedule_of_destroyReturned positive block
      (reached.mono Async.Scripted.orderly) returned
  have scheduled :
      ∀ thread, lane thread (requests schedule) = programs thread :=
    fun thread => (sameLanes thread).symm.trans (lanes thread)
  have admitted :
      ∀ position,
        position < config.sinkCount →
        (config.admitted schedule).map (fun entry => entry.2.line) =
          outcome position := by
    intro position inside
    have values := sameEntries position inside
    calc
      (config.admitted schedule).map (fun entry => entry.2.line) =
          ((config.admitted schedule).map Prod.snd).map
            LogEntry.line := by
        rw [List.map_map]
        rfl
      _ = ((Async.written position observed).map
            Queue.Item.value).map LogEntry.line := by
        rw [values]
      _ = (Async.written position observed).map
            (fun item => item.value.line) := by
        rw [List.map_map]
        rfl
      _ = outcome position := lines position inside
  refine ⟨produces_synchronous destroyer schedule scheduled admitted, ?_⟩
  intro position inside
  have merged := config.interleaving_admitted schedule
  simp only [scheduled, admitted position inside] at merged
  exact merged

/--
Capacity one: the second thread's entry waits for room, and one call is
filtered.
-/
theorem blocking_mode_refines_synchronous_mode_of_blocked_producer :
    ∃ outcome : Nat → List Line,
      outcome 0 =
          [⟨.warn, "net", "first"⟩, ⟨.warn, "net", "second"⟩] ∧
        Produces
          { module := "net"
            sinkCount := 1
            policy := {
              queueCapacity := 1
              overflowPolicy := .block
              async := false } }
          (fun thread : Fin 2 =>
            if thread = 0 then
              [⟨.warn, "first"⟩]
            else
              [⟨.debug, "hidden"⟩, ⟨.warn, "second"⟩])
          outcome := by
  obtain ⟨observed, state, reached, feature⟩ :=
    (Async.machine (Fin 2)
        { module := "net"
          sinkCount := 1
          policy := {
            queueCapacity := 1
            overflowPolicy := .block } }).exists_reachesBy
      Async.Scripted
      [.log 0 .warn "first" false ⟨0, ⟨0, 1, 1, false, 0, 0⟩⟩,
        .client 0, .advance (.client 0),
        .notifyOne (.client 0) .worker, .client 0, .client 0,
        .log 1 .debug "hidden" false ⟨1, ⟨0, 1, 1, false, 0, 0⟩⟩,
        .client 1,
        .log 1 .warn "second" false ⟨2, ⟨0, 1, 1, false, 0, 0⟩⟩,
        .client 1, .advance (.client 1), .advance (.client 1),
        .worker, .advance .worker, .advance .worker, .worker,
        .worker, .write 0, .worker, .worker, .worker,
        .advance (.client 1), .notifyOne (.client 1) .worker,
        .client 1, .client 1,
        .destroy 0, .client 0, .advance (.client 0),
        .advance (.client 0), .advance (.client 0), .client 0,
        .worker, .advance .worker, .advance .worker, .worker,
        .worker, .write 0, .worker, .worker, .worker, .worker,
        .worker, .advance .worker, .worker, .worker,
        .advance .worker, .worker, .client 0, .client 0, .client 0]
      (fun observed _ =>
        decide
          (.destroyReturned 0 ∈ observed ∧
            (∀ thread : Fin 2,
              lane thread (Async.calls observed) =
                if thread = 0 then
                  [⟨.warn, "first"⟩]
                else
                  [⟨.debug, "hidden"⟩, ⟨.warn, "second"⟩]) ∧
            ((Async.written 0 observed).map fun item =>
                item.value.line) =
              [⟨.warn, "net", "first"⟩, ⟨.warn, "net", "second"⟩]))
      (by decide +kernel)
  obtain ⟨returned, lanes, lines⟩ := of_decide_eq_true feature
  have produced :
      Produces
        { module := "net"
          sinkCount := 1
          policy := {
            queueCapacity := 1
            overflowPolicy := .block } }
        (fun thread : Fin 2 =>
          if thread = 0 then
            [⟨.warn, "first"⟩]
          else
            [⟨.debug, "hidden"⟩, ⟨.warn, "second"⟩])
        (fun position =>
          (Async.written position observed).map fun item =>
            item.value.line) :=
    ⟨observed, state, 0, reached, returned, lanes, fun _ _ => rfl⟩
  exact ⟨_, lines,
    (blocking_mode_refines_synchronous_mode rfl rfl (by decide)
      produced).1⟩

end ConcLogger
