import ConcLogger.Sync.Schedules

namespace ConcLogger.Sync

open Concurrency

/-!
# What a synchronous logger has written

The caller of `log` runs the loop over the sinks itself.  So at every moment a
sink has got what the threads' programs say, each in program order, but for
the iterations that are still to run in calls under way.
-/

variable {Thread : Type}

/-! ## What one step can do -/

/-- The steps of a synchronous logger, with guards and effects. -/
inductive Step
    [DecidableEq Thread]
    (config : LoggerConfig)
    (state : State Thread) :
    Event Thread → List (Obs Thread) → State Thread → Prop where
  | enter
      (thread : Thread)
      (call : Call)
      (entry : LogEntry)
      (idle : state.phase thread = .idle)
      (made : config.callEntry? call = some entry) :
      Step config state
        (.log thread call.level call.message call.withThreadDump
          call.environment)
        [.logCalled thread call.level call.message]
        (state.moveTo thread (.dispatching entry config.dispatch))
  | filter
      (thread : Thread)
      (call : Call)
      (idle : state.phase thread = .idle)
      (filtered : config.callEntry? call = none) :
      Step config state
        (.log thread call.level call.message call.withThreadDump
          call.environment)
        [.logCalled thread call.level call.message]
        (state.moveTo thread .logReturning)
  | flush
      (thread : Thread)
      (idle : state.phase thread = .idle) :
      Step config state (.flush thread) [.flushCalled thread]
        (state.moveTo thread (.flushSinks 0))
  | destroy
      (thread : Thread)
      (idle : state.phase thread = .idle)
      (alive : state.destroyer = none) :
      Step config state (.destroy thread) [.destroyCalled thread]
        { state.moveTo thread (.destroySinks 0) with
          destroyer := some thread }
  | write
      (thread : Thread)
      (position : Nat)
      (entry : LogEntry)
      (todo : Finset Nat)
      (phase : state.phase thread = .dispatching entry todo)
      (remains : position ∈ todo) :
      Step config state (.write thread position) [.wrote position entry]
        (state.moveTo thread (.dispatching entry (todo.erase position)))
  | join
      (thread : Thread)
      (entry : LogEntry)
      (phase : state.phase thread = .dispatching entry ∅) :
      Step config state (.client thread) []
        (state.moveTo thread .logReturning)
  | logReturn
      (thread : Thread)
      (phase : state.phase thread = .logReturning) :
      Step config state (.client thread) [.logReturned thread]
        (state.moveTo thread .idle)
  | flushSink
      (thread : Thread)
      (position : Nat)
      (phase : state.phase thread = .flushSinks position)
      (more : position < config.sinkCount) :
      Step config state (.client thread) [.sinkFlushed thread position]
        (state.moveTo thread (.flushSinks (position + 1)))
  | flushReturn
      (thread : Thread)
      (position : Nat)
      (phase : state.phase thread = .flushSinks position)
      (done : config.sinkCount ≤ position) :
      Step config state (.client thread) [.flushReturned thread]
        (state.moveTo thread .idle)
  | destroySink
      (thread : Thread)
      (position : Nat)
      (phase : state.phase thread = .destroySinks position)
      (more : position < config.sinkCount) :
      Step config state (.client thread) [.sinkFlushed thread position]
        (state.moveTo thread (.destroySinks (position + 1)))
  | destroyReturn
      (thread : Thread)
      (position : Nat)
      (phase : state.phase thread = .destroySinks position)
      (done : config.sinkCount ≤ position) :
      Step config state (.client thread) [.destroyReturned thread]
        (state.moveTo thread .idle)

section Exhaustive

variable
  [DecidableEq Thread]
  {config : LoggerConfig}
  {state next : State Thread}
  {emitted : List (Obs Thread)}

/-- Every step of a client outside `write` is listed. -/
private theorem Step.of_client?
    {thread : Thread}
    (taken : state.client? config thread = some (next, emitted)) :
    Step config state (.client thread) emitted next := by
  unfold State.client? at taken
  cases phase : state.phase thread with
  | idle =>
      simp [phase] at taken
  | dispatching entry todo =>
      simp only [phase, Option.ite_none_right_eq_some] at taken
      obtain ⟨rfl, shape⟩ := taken
      cases shape
      exact .join thread entry phase
  | logReturning =>
      simp only [phase] at taken
      cases taken
      exact .logReturn thread phase
  | flushSinks position =>
      simp only [phase] at taken
      split at taken
      · rename_i more
        cases taken
        exact .flushSink thread position phase more
      · rename_i done
        cases taken
        exact .flushReturn thread position phase (Nat.le_of_not_lt done)
  | destroySinks position =>
      simp only [phase] at taken
      split at taken
      · rename_i more
        cases taken
        exact .destroySink thread position phase more
      · rename_i done
        cases taken
        exact .destroyReturn thread position phase
          (Nat.le_of_not_lt done)

/-- The executable step function takes only the listed steps. -/
theorem Step.of_step?
    {event : Event Thread}
    (taken : state.step? config event = some (next, emitted)) :
    Step config state event emitted next := by
  cases event with
  | log thread level message withThreadDump environment =>
      simp only [State.step?] at taken
      split at taken
      · rename_i idle
        let call : Call :=
          { level := level
            message := message
            withThreadDump := withThreadDump
            environment := environment }
        cases made : config.entry? level message withThreadDump
            environment with
        | none =>
            rw [made] at taken
            cases taken
            exact .filter thread call idle made
        | some entry =>
            rw [made] at taken
            cases taken
            exact .enter thread call entry idle made
      · cases taken
  | flush thread =>
      simp only [State.step?] at taken
      split at taken
      · rename_i idle
        cases taken
        exact .flush thread idle
      · cases taken
  | destroy thread =>
      simp only [State.step?] at taken
      split at taken
      · rename_i idle alive
        cases taken
        exact .destroy thread idle alive
      · cases taken
  | write thread position =>
      simp only [State.step?, State.write?] at taken
      split at taken
      · rename_i entry todo phase
        split at taken
        · rename_i remains
          cases taken
          exact .write thread position entry todo phase remains
        · cases taken
      · cases taken
  | client thread =>
      exact of_client? taken

end Exhaustive

/-! ## Written and still to be written -/

/-- The entry that a call under way has yet to write at a position. -/
def Phase.owed? (position : Nat) : Phase → Option LogEntry
  | .dispatching entry todo =>
      if position ∈ todo then some entry else none
  | _ => none

variable [DecidableEq Thread]

/--
What has been written at a position are the lines of all calls so far, each
thread's in program order, but for those still owed by calls under way.
-/
def Merged
    (config : LoggerConfig)
    (position : Nat)
    (observed : List (Obs Thread))
    (state : State Thread) : Prop :=
  ∃ tagged : List (Thread × LogEntry),
    tagged.map Prod.snd = written position observed ∧
      ∀ thread,
        (lane thread (calls observed)).filterMap config.line? =
          (lane thread tagged).map LogEntry.line ++
            ((state.phase thread).owed? position).toList.map
              LogEntry.line

namespace Merged

variable
  {config : LoggerConfig}
  {position : Nat}
  {observed emitted : List (Obs Thread)}
  {state next : State Thread}
  {event : Event Thread}

/-- A thread moves without calling, writing or changing what it owes. -/
private theorem quiet
    (merged : Merged config position observed state)
    {thread : Thread}
    {phase : Phase}
    (noCalls : calls emitted = [])
    (noWrites : written position emitted = [])
    (moved : next.phase = Function.update state.phase thread phase)
    (same : phase.owed? position = (state.phase thread).owed? position) :
    Merged config position (observed ++ emitted) next := by
  obtain ⟨tagged, shown, lanes⟩ := merged
  refine ⟨tagged, ?_, ?_⟩
  · rw [written_append, noWrites, List.append_nil, shown]
  · intro other
    rw [calls_append, noCalls, List.append_nil, lanes other, moved]
    by_cases isMover : other = thread
    · subst isMover
      rw [Function.update_self, same]
    · rw [Function.update_of_ne isMover]

/-- A call begins and owes its entry, if it has one. -/
private theorem call
    (merged : Merged config position observed state)
    {thread : Thread}
    {phase : Phase}
    (made : Call)
    (idle : state.phase thread = .idle)
    (owes : phase.owed? position = config.callEntry? made) :
    Merged config position
      (observed ++ [.logCalled thread made.level made.message])
      (state.moveTo thread phase) := by
  obtain ⟨tagged, shown, lanes⟩ := merged
  have called :
      calls [.logCalled thread made.level made.message] =
        [(thread, made.toRequest)] :=
    rfl
  have noWrites :
      written position [.logCalled thread made.level made.message] = [] :=
    rfl
  refine ⟨tagged, ?_, ?_⟩
  · rw [written_append, noWrites, List.append_nil, shown]
  intro other
  rw [calls_append, called, lane_append, List.filterMap_append,
    lanes other, lane_singleton]
  by_cases isCaller : other = thread
  · subst isCaller
    simp only [if_true, idle, State.phase_moveTo_self, owes]
    cases entry : config.callEntry? made <;>
      simp [Phase.owed?, ← config.map_line_callEntry?, entry]
  · simp [State.moveTo, isCaller, Ne.symm isCaller]

/-- A write turns what a thread owes into what it has written. -/
private theorem write
    (merged : Merged config position observed state)
    {thread : Thread}
    {written : Nat}
    {entry : LogEntry}
    {todo : Finset Nat}
    (phase : state.phase thread = .dispatching entry todo)
    (remains : written ∈ todo) :
    Merged config position (observed ++ [.wrote written entry])
      (state.moveTo thread (.dispatching entry (todo.erase written))) := by
  by_cases here : written = position
  · subst here
    obtain ⟨tagged, shown, lanes⟩ := merged
    refine ⟨tagged ++ [(thread, entry)], ?_, ?_⟩
    · rw [written_append, List.map_append, shown]
      simp [Sync.written]
    · intro other
      have noCalls :
          calls [(.wrote written entry : Obs Thread)] = [] :=
        rfl
      rw [calls_append, noCalls, List.append_nil, lanes other,
        lane_append, lane_singleton]
      by_cases isWriter : other = thread
      · subst isWriter
        simp [phase, Phase.owed?, remains]
      · simp [State.moveTo, isWriter, Ne.symm isWriter]
  · refine merged.quiet rfl ?_ rfl ?_
    · simp [Sync.written, here]
    · simp [phase, Phase.owed?, Ne.symm here]

/-- Every step keeps what is written and what is owed together. -/
theorem step
    (merged : Merged config position observed state)
    (inside : position < config.sinkCount)
    (step : Step config state event emitted next) :
    Merged config position (observed ++ emitted) next := by
  cases step with
  | enter thread made entry idle isMade =>
      refine merged.call made idle ?_
      simp [Phase.owed?, inside, isMade]
  | filter thread made idle filtered =>
      exact merged.call made idle filtered.symm
  | write thread other entry todo phase remains =>
      exact merged.write phase remains
  | flush thread idle | destroy thread idle =>
      exact merged.quiet rfl rfl rfl (by rw [idle]; rfl)
  | join thread entry phase =>
      exact merged.quiet rfl rfl rfl (by simp [phase, Phase.owed?])
  | logReturn thread phase | flushSink thread sink phase
  | flushReturn thread sink phase | destroySink thread sink phase
  | destroyReturn thread sink phase =>
      exact merged.quiet rfl rfl rfl (by rw [phase]; rfl)

/-- In every reachable state every sink has got what the programs say. -/
theorem of_reaches
    {allowed : State Thread → Event Thread → Prop}
    (inside : position < config.sinkCount)
    (reached :
      (machine Thread config).ReachesBy allowed observed state) :
    Merged config position observed state :=
  reached.invariant (Merged config position)
    ⟨[], rfl, fun _ => rfl⟩
    (fun _ merged _ taken => merged.step inside (Step.of_step? taken))

/-- Outside `dispatch` nothing is owed. -/
theorem interleaving
    (merged : Merged config position observed state)
    (quiet :
      ∀ thread entry todo,
        state.phase thread ≠ .dispatching entry todo) :
    Interleaving
      (fun thread =>
        (lane thread (calls observed)).filterMap config.line?)
      ((written position observed).map LogEntry.line) := by
  obtain ⟨tagged, shown, lanes⟩ := merged
  refine ⟨tagged.map (Prod.map id LogEntry.line), ?_, ?_⟩
  · intro thread
    have nothing : (state.phase thread).owed? position = none := by
      cases phase : state.phase thread with
      | dispatching entry todo =>
          exact (quiet thread entry todo phase).elim
      | _ =>
          rfl
    simp [lane_map, lanes thread, nothing]
  · rw [← shown, List.map_map, List.map_map]
    rfl

end Merged

/--
A synchronous logger merges the programs.  At every moment and at every
position the entries written so far can be told apart by their threads so that
each thread's are the lines of its calls in program order, but for the entry
that the thread is still dispatching and has not written there; a thread that
is not inside `dispatch` has everything written at all positions.
-/
theorem synchronous_sinks_merge_programs
    {config : LoggerConfig}
    {observed : List (Obs Thread)}
    {state : State Thread}
    (reached : (machine Thread config).Reaches observed state)
    {position : Nat}
    (inside : position < config.sinkCount) :
    Merged config position observed state ∧
      ((∀ thread entry todo,
          state.phase thread ≠ .dispatching entry todo) →
        Interleaving
          (fun thread =>
            (lane thread (calls observed)).filterMap config.line?)
          ((written position observed).map LogEntry.line)) := by
  have merged := Merged.of_reaches inside reached
  exact ⟨merged, merged.interleaving⟩

/-- Two calls at the same time reach two sinks in different orders. -/
theorem synchronous_sinks_merge_programs_of_two_orders :
    ∃ (observed : List (Obs (Fin 2))) (state : State (Fin 2)),
      (machine (Fin 2) { module := "net", sinkCount := 2 }).Reaches
          observed state ∧
        (written 0 observed).map LogEntry.message = ["a", "b"] ∧
        (written 1 observed).map LogEntry.message = ["b", "a"] ∧
        ∀ position < 2,
          Merged { module := "net", sinkCount := 2 } position observed
            state := by
  obtain ⟨observed, state, reached, feature⟩ :=
    (machine (Fin 2) { module := "net", sinkCount := 2 }).exists_reaches
      [.log 0 .warn "a" false ⟨0, ⟨0, 1, 1, false, 0, 0⟩⟩,
        .log 1 .warn "b" false ⟨0, ⟨0, 1, 1, false, 0, 0⟩⟩,
        .write 0 0, .write 1 0, .write 1 1, .write 0 1,
        .client 0, .client 0, .client 1, .client 1]
      (fun observed _ =>
        (written 0 observed).map LogEntry.message == ["a", "b"] &&
          (written 1 observed).map LogEntry.message == ["b", "a"])
      (by decide +kernel)
  simp only [Bool.and_eq_true, beq_iff_eq] at feature
  exact ⟨observed, state, reached, feature.1, feature.2,
    fun _ inside =>
      (synchronous_sinks_merge_programs reached inside).1⟩

end ConcLogger.Sync
