import Mathlib.Data.Finset.Basic
import ConcLogger.Sync.Threads

namespace ConcLogger.Sync

open Concurrency

/-!
# Every schedule can be carried out

A synchronous logger can run the calls of any schedule one after another, each
of them undisturbed, and be destroyed afterwards.  At every position it writes
the entries that the schedule admits, in order.
-/

variable
  {Thread : Type}
  [DecidableEq Thread]
  {config : LoggerConfig}
  {observed : List (Obs Thread)}
  {state : State Thread}

section MoveTo

variable (thread : Thread)

@[simp] theorem State.phase_moveTo_self
    (phase : Phase) :
    (state.moveTo thread phase).phase thread = phase := by
  simp [State.moveTo]

@[simp] theorem State.moveTo_moveTo
    (first second : Phase) :
    (state.moveTo thread first).moveTo thread second =
      state.moveTo thread second := by
  simp [State.moveTo]

/-- A client that is where it moves to has not moved. -/
theorem State.moveTo_eq_self
    {phase : Phase}
    (already : state.phase thread = phase) :
    state.moveTo thread phase = state := by
  simp [State.moveTo, ← already]

end MoveTo

variable {thread : Thread}

/-- The parallel loop of `dispatch` runs to its end. -/
theorem exists_dispatch_run
    {entry : LogEntry}
    {todo : Finset Nat}
    (reached :
      (machine Thread config).ReachesBy Scripted observed state)
    (phase : state.phase thread = .dispatching entry todo) :
    ∃ emitted,
      (machine Thread config).ReachesBy Scripted
          (observed ++ emitted)
          (state.moveTo thread (.dispatching entry ∅)) ∧
        calls emitted = [] ∧
        ∀ position,
          written position emitted =
            if position ∈ todo then [entry] else [] := by
  induction todo using Finset.induction_on
    generalizing observed state with
  | empty =>
      refine ⟨[], ?_, rfl, fun position => rfl⟩
      rw [List.append_nil, State.moveTo_eq_self thread phase]
      exact reached
  | insert chosen rest absent inductionHypothesis =>
      have wrote :
          state.step? config (.write thread chosen) =
            some
              (state.moveTo thread (.dispatching entry rest),
                [.wrote chosen entry]) := by
        simp [State.step?, State.write?, phase,
          Finset.erase_insert absent]
      have afterWrite :
          (machine Thread config).ReachesBy Scripted
            (observed ++ [.wrote chosen entry])
            (state.moveTo thread (.dispatching entry rest)) :=
        .step (.write thread chosen) reached trivial wrote
      obtain ⟨emitted, continued, noCalls, writes⟩ :=
        inductionHypothesis afterWrite (by simp)
      refine ⟨.wrote chosen entry :: emitted, ?_, noCalls, ?_⟩
      · simpa using continued
      · intro position
        have first :
            written position (.wrote chosen entry :: emitted) =
              (if chosen = position then [entry] else []) ++
                written position emitted := by
          by_cases same : chosen = position <;> simp [written, same]
        rw [first, writes position]
        by_cases same : chosen = position
        · subst same
          simp [absent]
        · simp [same, Ne.symm same]

/-- A call that has taken effect returns. -/
private theorem return_run
    (reached :
      (machine Thread config).ReachesBy Scripted observed
        (state.moveTo thread .logReturning))
    (idle : state.phase thread = .idle) :
    (machine Thread config).ReachesBy Scripted
      (observed ++ [.logReturned thread]) state := by
  refine .step (.client thread) reached trivial ?_
  simp [machine, State.step?, State.client?,
    State.moveTo_eq_self thread idle]

/-- One call runs from its invocation to its return. -/
theorem exists_call_run
    (reached :
      (machine Thread config).ReachesBy Scripted observed state)
    (idle : state.phase thread = .idle)
    (alive : state.destroyer = none)
    (call : Call) :
    ∃ emitted,
      (machine Thread config).ReachesBy Scripted
          (observed ++ emitted) state ∧
        calls emitted = [(thread, call.toRequest)] ∧
        ∀ position,
          position < config.sinkCount →
          written position emitted = (config.callEntry? call).toList := by
  cases made : config.callEntry? call with
  | none =>
      have filtered :
          config.entry? call.level call.message call.withThreadDump
            call.environment = none :=
        made
      have invoked :
          (machine Thread config).ReachesBy Scripted
            (observed ++ [.logCalled thread call.level call.message])
            (state.moveTo thread .logReturning) := by
        refine .step
          (.log thread call.level call.message call.withThreadDump
            call.environment) reached alive ?_
        simp [machine, State.step?, idle, filtered]
      refine ⟨[.logCalled thread call.level call.message,
        .logReturned thread], ?_, rfl, fun position _ => rfl⟩
      simpa using return_run invoked idle
  | some entry =>
      have admitted :
          config.entry? call.level call.message call.withThreadDump
            call.environment = some entry :=
        made
      have invoked :
          (machine Thread config).ReachesBy Scripted
            (observed ++ [.logCalled thread call.level call.message])
            (state.moveTo thread
              (.dispatching entry config.dispatch)) := by
        refine .step
          (.log thread call.level call.message call.withThreadDump
            call.environment) reached alive ?_
        simp [machine, State.step?, idle, admitted]
      have phase :
          (state.moveTo thread
            (.dispatching entry config.dispatch)).phase thread =
              .dispatching entry config.dispatch := by
        simp
      obtain ⟨writes, dispatched, noCalls, wrote⟩ :=
        exists_dispatch_run invoked phase
      have joined :
          (machine Thread config).ReachesBy Scripted
            (observed ++ [.logCalled thread call.level call.message] ++
              writes ++ [])
            (state.moveTo thread .logReturning) := by
        refine .step (.client thread) dispatched trivial ?_
        simp [machine, State.step?, State.client?]
      refine ⟨[.logCalled thread call.level call.message] ++ writes ++
        [.logReturned thread], ?_, ?_, ?_⟩
      · simpa using return_run joined idle
      · rw [calls_append, calls_append, noCalls]
        rfl
      · intro position inside
        rw [written_append, written_append, wrote position,
          if_pos (LoggerConfig.mem_dispatch.mpr inside)]
        rfl

/-- Every schedule is carried out by some run. -/
theorem exists_schedule_run
    (config : LoggerConfig)
    (schedule : List (Thread × Call)) :
    ∃ observed,
      (machine Thread config).ReachesBy Scripted observed .initial ∧
        calls observed = requests schedule ∧
        ∀ position,
          position < config.sinkCount →
          written position observed =
            (config.admitted schedule).map Prod.snd := by
  induction schedule using List.reverseRecOn with
  | nil =>
      exact ⟨[], .init, rfl, fun _ _ => rfl⟩
  | append_singleton earlier last inductionHypothesis =>
      obtain ⟨caller, call⟩ := last
      obtain ⟨before, reached, called, wrote⟩ := inductionHypothesis
      have idle : (State.initial : State Thread).phase caller = .idle :=
        rfl
      obtain ⟨emitted, continued, calledLast, wroteLast⟩ :=
        exists_call_run reached idle rfl call
      refine ⟨before ++ emitted, continued, ?_, ?_⟩
      · rw [calls_append, called, calledLast, requests_append]
        rfl
      · intro position inside
        rw [written_append, wrote position inside,
          wroteLast position inside, LoggerConfig.admitted_append,
          List.map_append]
        cases made : config.callEntry? call with
        | none =>
            rw [config.admitted_singleton_of_none made]
            rfl
        | some entry =>
            rw [config.admitted_singleton_of_some made]
            rfl

/-- The destructor goes to the remaining sinks. -/
private theorem exists_destroySinks_run
    {remaining position : Nat}
    (total : position + remaining = config.sinkCount)
    (reached :
      (machine Thread config).ReachesBy Scripted observed state)
    (phase : state.phase thread = .destroySinks position) :
    ∃ emitted,
      (machine Thread config).ReachesBy Scripted
          (observed ++ emitted)
          (state.moveTo thread (.destroySinks config.sinkCount)) ∧
        calls emitted = [] ∧
        ∀ sink, written sink emitted = [] := by
  induction remaining generalizing position observed state with
  | zero =>
      refine ⟨[], ?_, rfl, fun _ => rfl⟩
      obtain rfl : position = config.sinkCount := by omega
      rw [List.append_nil, State.moveTo_eq_self thread phase]
      exact reached
  | succ fewer inductionHypothesis =>
      have inside : position < config.sinkCount := by omega
      have flushed :
          (machine Thread config).ReachesBy Scripted
            (observed ++ [.sinkFlushed thread position])
            (state.moveTo thread (.destroySinks (position + 1))) := by
        refine .step (.client thread) reached trivial ?_
        simp [machine, State.step?, State.client?, phase, inside]
      have fewerLeft : position + 1 + fewer = config.sinkCount := by
        omega
      obtain ⟨emitted, continued, noCalls, noWrites⟩ :=
        inductionHypothesis fewerLeft flushed
          (State.phase_moveTo_self thread _)
      refine ⟨.sinkFlushed thread position :: emitted, ?_, noCalls,
        noWrites⟩
      simpa using continued

/-- The destructor returns when it has been at every sink. -/
private theorem destroyReturn_run
    (reached :
      (machine Thread config).ReachesBy Scripted observed state)
    (phase : state.phase thread = .destroySinks config.sinkCount) :
    (machine Thread config).ReachesBy Scripted
      (observed ++ [.destroyReturned thread])
      (state.moveTo thread .idle) := by
  refine .step (.client thread) reached trivial ?_
  simp [machine, State.step?, State.client?, phase]

/-- A logger that nobody is using can be destroyed. -/
theorem exists_destroy_run
    (thread : Thread)
    (reached :
      (machine Thread config).ReachesBy Scripted observed .initial) :
    ∃ emitted final,
      (machine Thread config).ReachesBy Scripted
          (observed ++ emitted) final ∧
        .destroyReturned thread ∈ emitted ∧
        calls emitted = [] ∧
        ∀ sink, written sink emitted = [] := by
  have begun :
      (machine Thread config).ReachesBy Scripted
        (observed ++ [.destroyCalled thread])
        { State.initial.moveTo thread (.destroySinks 0) with
          destroyer := some thread } :=
    .step (.destroy thread) reached (fun _ => rfl) rfl
  obtain ⟨flushes, atEnd, noCalls, noWrites⟩ :=
    exists_destroySinks_run (Nat.zero_add config.sinkCount) begun
      (State.phase_moveTo_self thread (.destroySinks 0))
  have returned :=
    destroyReturn_run atEnd (State.phase_moveTo_self thread _)
  rw [List.append_assoc, List.append_assoc] at returned
  refine ⟨_, _, returned, by simp, ?_, ?_⟩
  · rw [calls_append, calls_append, noCalls]
    rfl
  · intro sink
    rw [written_append, written_append, noWrites sink]
    rfl

end ConcLogger.Sync
