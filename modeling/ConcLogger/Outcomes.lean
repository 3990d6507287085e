import ConcLogger.Async.Completion
import ConcLogger.Refinement
import ConcLogger.Sync.Shutdown

namespace ConcLogger

open Concurrency

/-!
# The outcomes of blocking asynchronous mode

What programs can leave on the sinks is known exactly: one interleaving of
their lines, the same on all sinks, and every interleaving is possible.  These
are the outcomes of synchronous mode on which the sinks agree.
-/

variable
  {Thread : Type}
  [DecidableEq Thread]
  {config : LoggerConfig}
  {programs : Thread → List Request}
  {outcome : Nat → List Line}

/-- A call of a request; the environment does not matter for its line. -/
private def Request.toCall (request : Request) : Call where
  toRequest := request
  withThreadDump := false
  environment := ⟨0, ⟨0, 1, 1, false, 0, 0⟩⟩

omit [DecidableEq Thread] in
/-- Every order of the requests is one of a schedule of calls. -/
private theorem requests_map_toCall
    (order : List (Thread × Request)) :
    requests (order.map (Prod.map id Request.toCall)) = order := by
  simp [requests, Request.toCall, Function.comp_def]

section Blocking

variable
  (isAsync : config.policy.async = true)
  (block : config.policy.overflowPolicy = .block)
  (positive : 0 < config.policy.queueCapacity)

include isAsync block positive

/-- Some schedule of the programs is behind what they leave on the sinks. -/
private theorem exists_schedule_of_produces
    (produced : Produces config programs outcome) :
    Nonempty Thread ∧
      ∃ schedule : List (Thread × Call),
        (∀ thread, lane thread (requests schedule) = programs thread) ∧
          ∀ position,
            position < config.sinkCount →
            outcome position =
              (config.admitted schedule).map fun entry =>
                entry.2.line := by
  rw [Produces, if_pos isAsync] at produced
  obtain ⟨observed, state, destroyer, reached, returned, lanes, lines⟩ :=
    produced
  obtain ⟨schedule, sameLanes, sameEntries⟩ :=
    Async.exists_schedule_of_destroyReturned positive block
      (reached.mono Async.Scripted.orderly) returned
  refine ⟨⟨destroyer⟩, schedule, ?_, ?_⟩
  · exact fun thread => (sameLanes thread).symm.trans (lanes thread)
  · intro position inside
    have values :=
      congrArg (List.map LogEntry.line) (sameEntries position inside)
    rw [List.map_map, List.map_map] at values
    exact (lines position inside).symm.trans values

/-- Every order of the requests can be carried out. -/
private theorem produces_of_order
    [Fintype Thread]
    (destroyer : Thread)
    (order : List (Thread × Request))
    (lanes : ∀ thread, lane thread order = programs thread)
    (lines :
      ∀ position,
        position < config.sinkCount →
        outcome position =
          order.filterMap fun request => config.line? request.2) :
    Produces config programs outcome := by
  obtain ⟨observed, state, reached, returned, called, wrote⟩ :=
    Async.exists_run_of_schedule positive block destroyer
      (order.map (Prod.map id Request.toCall))
  rw [requests_map_toCall] at called
  rw [Produces, if_pos isAsync]
  refine ⟨observed, state, destroyer, reached, returned, ?_, ?_⟩
  · intro thread
    rw [called]
    exact lanes thread
  · intro position inside
    rw [wrote position inside, requests_map_toCall]
    exact (lines position inside).symm

/-- Every interleaving of the lines can be left on the sinks. -/
private theorem produces_of_interleaving
    [Fintype Thread]
    (destroyer : Thread)
    {merged : List Line}
    (interleaved :
      Interleaving
        (fun thread => (programs thread).filterMap config.line?) merged)
    (lines :
      ∀ position,
        position < config.sinkCount → outcome position = merged) :
    Produces config programs outcome := by
  obtain ⟨selected, lanes, shows⟩ := interleaved
  obtain ⟨order, sameLanes, selects⟩ :=
    exists_schedule_of_selected config.line? programs selected lanes
  refine produces_of_order isAsync block positive destroyer order
    sameLanes ?_
  intro position inside
  rw [lines position inside, ← shows, ← selects, List.map_filterMap]
  congr 1
  funext request
  cases config.line? request.2 <;> rfl

/--
An asynchronous logger that blocks on overflow leaves one interleaving of the
threads' lines at or above the minimum level on all sinks, each thread's in
program order, and whatever the capacity there is a run for every interleaving.
-/
theorem blocking_mode_produces_exactly_the_interleavings
    [Fintype Thread]
    [Nonempty Thread] :
    Produces config programs outcome ↔
      ∃ merged,
        Interleaving
            (fun thread => (programs thread).filterMap config.line?)
            merged ∧
          ∀ position,
            position < config.sinkCount → outcome position = merged := by
  constructor
  · intro produced
    obtain ⟨_, schedule, lanes, lines⟩ :=
      exists_schedule_of_produces isAsync block positive produced
    have merged := config.interleaving_admitted schedule
    simp only [lanes] at merged
    exact ⟨_, merged, lines⟩
  · rintro ⟨merged, interleaved, lines⟩
    exact produces_of_interleaving isAsync block positive
      (Classical.arbitrary Thread) interleaved lines

/--
The outcomes of an asynchronous logger that blocks on overflow are those of
the synchronous logger for the same programs on which all sinks agree.
-/
theorem blocking_mode_is_synchronous_mode_with_one_order
    [Fintype Thread] :
    Produces config programs outcome ↔
      Produces config.synchronous programs outcome ∧
        ∀ first second,
          first < config.sinkCount →
          second < config.sinkCount →
          outcome first = outcome second := by
  constructor
  · intro produced
    obtain ⟨⟨destroyer⟩, schedule, lanes, lines⟩ :=
      exists_schedule_of_produces isAsync block positive produced
    refine ⟨produces_synchronous destroyer schedule lanes ?_, ?_⟩
    · exact fun position inside => (lines position inside).symm
    · intro first second firstInside secondInside
      rw [lines first firstInside, lines second secondInside]
  · rintro ⟨produced, agree⟩
    rw [Produces, if_neg (by simp [LoggerConfig.synchronous])] at produced
    obtain ⟨observed, state, destroyer, reached, returned, lanes, lines⟩ :=
      produced
    by_cases inside : 0 < config.sinkCount
    · have orderly := reached.mono Sync.Scripted.orderly
      have merged :=
        Sync.interleaving_of_began orderly
          (Sync.began_of_destroyReturned orderly returned) inside
      simp only [lanes, lines 0 inside] at merged
      exact produces_of_interleaving isAsync block positive destroyer
        merged fun position isPosition =>
          agree position 0 isPosition inside
    · exact produces_of_order isAsync block positive destroyer
        (Sync.calls observed) lanes
        fun position isPosition =>
          (inside (Nat.zero_lt_of_lt isPosition)).elim

end Blocking

/-! ## Two threads -/

/-- A blocking logger with room for one entry. -/
def oneSlot (sinkCount : Nat) : LoggerConfig where
  module := "net"
  sinkCount := sinkCount
  policy := { queueCapacity := 1, overflowPolicy := .block }

/-- The thread that is started later may be first, and a call is filtered. -/
theorem blocking_mode_produces_exactly_the_interleavings_of_late_thread :
    Produces (oneSlot 2)
      (fun thread : Fin 2 =>
        if thread = 0 then
          [⟨.warn, "first"⟩]
        else
          [⟨.debug, "hidden"⟩, ⟨.warn, "second"⟩])
      (fun _ => [⟨.warn, "net", "second"⟩, ⟨.warn, "net", "first"⟩]) := by
  refine (blocking_mode_produces_exactly_the_interleavings rfl rfl
    (by decide)).mpr ⟨_, ⟨[(1, ⟨.warn, "net", "second"⟩),
      (0, ⟨.warn, "net", "first"⟩)], ?_, rfl⟩, fun _ _ => rfl⟩
  decide

/-- Two calls that cross at the sinks are possible in synchronous mode only. -/
theorem blocking_mode_is_synchronous_mode_with_one_order_of_crossing_calls :
    ∃ outcome : Nat → List Line,
      Produces (oneSlot 2).synchronous
          (fun thread : Fin 2 =>
            if thread = 0 then [⟨.warn, "a"⟩] else [⟨.warn, "b"⟩])
          outcome ∧
        ¬ Produces (oneSlot 2)
          (fun thread : Fin 2 =>
            if thread = 0 then [⟨.warn, "a"⟩] else [⟨.warn, "b"⟩])
          outcome := by
  obtain ⟨observed, state, reached, feature⟩ :=
    (Sync.machine (Fin 2) (oneSlot 2).synchronous).exists_reachesBy
      Sync.Scripted
      [.log 0 .warn "a" false ⟨0, ⟨0, 1, 1, false, 0, 0⟩⟩,
        .log 1 .warn "b" false ⟨0, ⟨0, 1, 1, false, 0, 0⟩⟩,
        .write 0 0, .write 1 0, .write 1 1, .write 0 1,
        .client 0, .client 0, .client 1, .client 1,
        .destroy 1, .client 1, .client 1, .client 1]
      (fun observed _ =>
        decide
          (.destroyReturned 1 ∈ observed ∧
            (∀ thread : Fin 2,
              lane thread (Sync.calls observed) =
                if thread = 0 then [⟨.warn, "a"⟩] else [⟨.warn, "b"⟩]) ∧
            (Sync.written 0 observed).map LogEntry.line ≠
              (Sync.written 1 observed).map LogEntry.line))
      (by decide +kernel)
  obtain ⟨returned, lanes, different⟩ := of_decide_eq_true feature
  refine ⟨fun position =>
    (Sync.written position observed).map LogEntry.line, ?_, ?_⟩
  · exact ⟨observed, state, 1, reached, returned, lanes, fun _ _ => rfl⟩
  · intro produced
    exact different
      (((blocking_mode_is_synchronous_mode_with_one_order rfl rfl
        (by decide)).mp produced).2 0 1 (by decide) (by decide))

end ConcLogger
