import ConcLogger.Concurrency.Threads
import ConcLogger.Sync.Writes

namespace ConcLogger.Sync

open Concurrency

/-!
# Shutdown of a synchronous logger

There is no worker to wait for.  A program that lets every call return before
it destroys the logger has everything written by then, and the destructor
flushes each sink after the last write.
-/

variable {Thread : Type}

/-- `~Logger` begins when no call is under way, and no call begins later. -/
def Orderly (state : State Thread) : Event Thread → Prop
  | .destroy _ => ∀ thread, state.phase thread = .idle
  | .log _ _ _ _ _ | .flush _ => state.destroyer = none
  | _ => True

instance decidableOrderly
    [Fintype Thread]
    (state : State Thread) :
    ∀ event, Decidable (Orderly state event)
  | .destroy _ =>
      inferInstanceAs
        (Decidable (∀ thread, state.phase thread = .idle))
  | .log _ _ _ _ _ | .flush _ =>
      decidable_of_iff (state.destroyer.isNone = true)
        Option.isNone_iff_eq_none
  | .write _ _ | .client _ =>
      .isTrue trivial

instance decidableScripted
    [Fintype Thread]
    (state : State Thread) :
    ∀ event, Decidable (Scripted state event)
  | .flush _ =>
      .isFalse id
  | .destroy _ =>
      inferInstanceAs
        (Decidable (∀ thread, state.phase thread = .idle))
  | .log _ _ _ _ _ =>
      decidable_of_iff (state.destroyer.isNone = true)
        Option.isNone_iff_eq_none
  | .write _ _ | .client _ =>
      .isTrue trivial

/-- Programs are run in an orderly way. -/
theorem Scripted.orderly
    {state : State Thread}
    {event : Event Thread}
    (scripted : Scripted state event) :
    Orderly state event := by
  cases event with
  | flush thread =>
      exact scripted.elim
  | _ =>
      exact scripted

/-- The client is outside the logger or inside the destructor. -/
def Phase.Retired : Phase → Prop
  | .idle | .destroySinks _ => True
  | _ => False

/-- Once `~Logger` has begun every client is retired. -/
def Retired (state : State Thread) : Prop :=
  state.destroyer ≠ none →
  ∀ thread, (state.phase thread).Retired

/-- What is known of `~Logger` from the phase of its caller. -/
def DestroyWatched
    (observed : List (Obs Thread))
    (state : State Thread)
    (thread : Thread) : Phase → Prop
  | .destroySinks position =>
      state.destroyer ≠ none ∧
        ∃ early late,
          observed = early ++ late ∧
            .destroyCalled thread ∈ early ∧
            (∀ sink, written sink late = []) ∧
            ∀ flushed < position, .sinkFlushed thread flushed ∈ late
  | _ => True

variable [DecidableEq Thread]

section Steps

variable
  {config : LoggerConfig}
  {observed emitted : List (Obs Thread)}
  {state next : State Thread}
  {event : Event Thread}
  {thread : Thread}

/-- Every orderly step keeps the clients retired. -/
theorem Retired.step
    (retired : Retired state)
    (orderly : Orderly state event)
    (step : Step config state event emitted next) :
    Retired next := by
  intro began
  have moveTo
      (alreadyBegan : state.destroyer ≠ none)
      {thread : Thread}
      {phase : Phase}
      (moved : (state.phase thread).Retired → phase.Retired) :
      ∀ other,
        (Function.update state.phase thread phase other).Retired :=
    forall_update (fun _ (phase : Phase) => phase.Retired)
      (fun other _ => retired alreadyBegan other)
      (moved (retired alreadyBegan thread))
  cases step with
  | enter | filter | flush =>
      exact (began orderly).elim
  | destroy thread idle alive =>
      exact forall_update
        (fun _ (phase : Phase) => phase.Retired)
        (fun other _ => by rw [orderly other]; trivial) trivial
  | write thread position entry todo phase remains
  | join thread entry phase =>
      exact moveTo began (by rw [phase]; exact id)
  | logReturn | flushReturn | destroySink | destroyReturn =>
      exact moveTo began fun _ => trivial
  | flushSink thread position phase =>
      exact moveTo began (by rw [phase]; exact id)

/-- In every orderly run all clients are retired once `~Logger` has begun. -/
theorem Retired.of_reaches
    (reached :
      (machine Thread config).ReachesBy Orderly observed state) :
    Retired state :=
  reached.invariant
    (fun _ state => Retired state)
    (fun began => (began rfl).elim)
    (fun _ retired orderly taken =>
      retired.step orderly (Step.of_step? taken))

/-- The destructor's caller is not forgotten. -/
private theorem Step.destroyer_mono
    (step : Step config state event emitted next)
    (began : state.destroyer ≠ none) :
    next.destroyer ≠ none := by
  cases step with
  | destroy thread idle alive =>
      exact Option.some_ne_none thread
  | _ =>
      exact began

/-- Nothing is written once `~Logger` has begun. -/
private theorem Step.writes_nothing
    (retired : Retired state)
    (began : state.destroyer ≠ none)
    (step : Step config state event emitted next)
    (sink : Nat) :
    written sink emitted = [] := by
  cases step with
  | write thread position entry todo phase =>
      have mover := retired began thread
      rw [phase] at mover
      exact mover.elim
  | _ =>
      rfl

/-- Every step keeps `~Logger` watched. -/
private theorem DestroyWatched.step
    (watched :
      ∀ thread,
        DestroyWatched observed state thread (state.phase thread))
    (retired : Retired state)
    (step : Step config state event emitted next) :
    ∀ thread,
      DestroyWatched (observed ++ emitted) next thread
        (next.phase thread) := by
  have append
      {thread : Thread}
      {phase : Phase}
      (before : DestroyWatched observed state thread phase) :
      DestroyWatched (observed ++ emitted) next thread phase := by
    cases phase with
    | destroySinks position =>
        obtain ⟨began, early, late, shape, called, unwritten, flushed⟩ :=
          before
        refine ⟨step.destroyer_mono began, early, late ++ emitted, ?_,
          called, ?_, ?_⟩
        · rw [shape, List.append_assoc]
        · intro sink
          rw [written_append, unwritten sink,
            step.writes_nothing retired began sink, List.append_nil]
        · intro sink earlier
          exact List.mem_append_left _ (flushed sink earlier)
    | _ =>
        trivial
  have move
      {thread : Thread}
      {phase : Phase}
      (moved : next.phase = Function.update state.phase thread phase)
      (mover : DestroyWatched (observed ++ emitted) next thread phase) :
      ∀ other,
        DestroyWatched (observed ++ emitted) next other
          (next.phase other) := by
    rw [moved]
    exact forall_update
      (DestroyWatched (observed ++ emitted) next)
      (fun other _ => append (watched other)) mover
  cases step with
  | destroy thread idle alive =>
      refine move rfl ⟨Option.some_ne_none thread,
        observed ++ [.destroyCalled thread], [], ?_, ?_, fun _ => rfl, ?_⟩
      · rw [List.append_nil]
      · exact List.mem_append_right _ (List.mem_singleton_self _)
      · exact fun _ before => absurd before (Nat.not_lt_zero _)
  | destroySink thread position phase more =>
      have before := watched thread
      rw [phase] at before
      obtain ⟨began, early, late, shape, called, unwritten, flushed⟩ :=
        before
      refine move rfl ⟨began, early,
        late ++ [.sinkFlushed thread position], ?_, called, ?_, ?_⟩
      · rw [shape, List.append_assoc]
      · intro sink
        rw [written_append, unwritten sink]
        rfl
      · intro sink earlier
        rcases Nat.lt_succ_iff_lt_or_eq.mp earlier with less | rfl
        · exact List.mem_append_left _ (flushed sink less)
        · exact List.mem_append_right _ (List.mem_singleton_self _)
  | _ =>
      exact move rfl trivial

/-- The destructor returns when it has been at every sink. -/
private theorem Step.destroySinks_of_returned
    (step : Step config state event emitted next)
    (returned : .destroyReturned thread ∈ emitted) :
    ∃ position,
      state.phase thread = .destroySinks position ∧
        config.sinkCount ≤ position := by
  cases step with
  | destroyReturn mover position phase done =>
      simp only [List.mem_singleton, Obs.destroyReturned.injEq]
        at returned
      subst returned
      exact ⟨position, phase, done⟩
  | _ =>
      simp at returned

end Steps

section Reached

variable
  {config : LoggerConfig}
  {observed : List (Obs Thread)}
  {state : State Thread}
  {thread : Thread}
  (reached :
    (machine Thread config).ReachesBy Orderly observed state)

include reached

/-- In every orderly run `~Logger` is watched. -/
theorem DestroyWatched.of_reaches (thread : Thread) :
    DestroyWatched observed state thread (state.phase thread) :=
  reached.invariant
    (fun observed state =>
      ∀ thread,
        DestroyWatched observed state thread (state.phase thread))
    (by
      intro thread
      trivial)
    (fun before watched _ taken =>
      DestroyWatched.step watched (.of_reaches before)
        (Step.of_step? taken))
    thread

/-- Once `~Logger` has returned, it has begun. -/
theorem began_of_destroyReturned
    (returned : .destroyReturned thread ∈ observed) :
    state.destroyer ≠ none := by
  refine reached.invariant
    (fun observed state =>
      .destroyReturned thread ∈ observed → state.destroyer ≠ none)
    (by simp) ?_ returned
  intro observed emitted state next event before began _ taken returned
  have step := Step.of_step? taken
  apply step.destroyer_mono
  rcases List.mem_append.mp returned with earlier | now
  · exact began earlier
  · obtain ⟨position, phase, _⟩ := step.destroySinks_of_returned now
    have watched := DestroyWatched.of_reaches before thread
    rw [phase] at watched
    exact watched.1

/-- Once `~Logger` has begun, everything that was logged has been written. -/
theorem interleaving_of_began
    (began : state.destroyer ≠ none)
    {position : Nat}
    (inside : position < config.sinkCount) :
    Interleaving
      (fun thread =>
        (lane thread (calls observed)).filterMap config.line?)
      ((written position observed).map LogEntry.line) := by
  refine (Merged.of_reaches inside reached).interleaving ?_
  intro thread entry todo phase
  have retired := Retired.of_reaches reached began thread
  rw [phase] at retired
  exact retired

/--
When `~Logger` of a synchronous logger returns in an orderly run, each sink
has got an interleaving of all that the threads logged, each thread's lines in
program order, and the destructor has flushed the sink after the last write.
-/
theorem synchronous_shutdown_loses_nothing
    {next : State Thread}
    {event : Event Thread}
    (returns :
      state.step? config event =
        some (next, [.destroyReturned thread])) :
    ∀ position,
      position < config.sinkCount →
      Interleaving
          (fun thread =>
            (lane thread (calls observed)).filterMap config.line?)
          ((written position observed).map LogEntry.line) ∧
        ∃ early late,
          observed = early ++ .sinkFlushed thread position :: late ∧
            .destroyCalled thread ∈ early ∧
            ∀ sink, written sink late = [] := by
  intro position inside
  obtain ⟨last, phase, done⟩ :=
    (Step.of_step? returns).destroySinks_of_returned
      (List.mem_singleton_self _)
  have watched := DestroyWatched.of_reaches reached thread
  rw [phase] at watched
  obtain ⟨began, early, late, shape, called, unwritten, flushed⟩ :=
    watched
  refine ⟨interleaving_of_began reached began inside, ?_⟩
  obtain ⟨between, rest, rfl⟩ :=
    List.append_of_mem (flushed position (inside.trans_le done))
  refine ⟨early ++ between, rest, ?_, List.mem_append_left _ called, ?_⟩
  · rw [shape, List.append_assoc]
  · intro sink
    have sinceCall := unwritten sink
    rw [written_append, List.append_eq_nil_iff] at sinceCall
    exact sinceCall.2

end Reached

/-- Two calls that cross at two sinks, and the last step of the destructor. -/
theorem synchronous_shutdown_loses_nothing_of_crossing_calls :
    ∃ (observed : List (Obs (Fin 2))) (state next : State (Fin 2)),
      (machine (Fin 2)
          { module := "net", sinkCount := 2 }).ReachesBy Orderly
          observed state ∧
        state.step? { module := "net", sinkCount := 2 } (.client 1) =
          some (next, [.destroyReturned 1]) ∧
        (written 0 observed).map LogEntry.message = ["a", "b"] ∧
        (written 1 observed).map LogEntry.message = ["b", "a"] ∧
        ∃ early late,
          observed = early ++ .sinkFlushed 1 0 :: late ∧
            ∀ sink, written sink late = [] := by
  obtain ⟨observed, state, reached, feature⟩ :=
    (machine (Fin 2)
        { module := "net", sinkCount := 2 }).exists_reachesBy Orderly
      [.log 0 .warn "a" false ⟨0, ⟨0, 1, 1, false, 0, 0⟩⟩,
        .log 1 .warn "b" false ⟨0, ⟨0, 1, 1, false, 0, 0⟩⟩,
        .write 0 0, .write 1 0, .write 1 1, .write 0 1,
        .client 0, .client 0, .client 1, .client 1,
        .destroy 1, .client 1, .client 1]
      (fun observed state =>
        (written 0 observed).map LogEntry.message == ["a", "b"] &&
          (written 1 observed).map LogEntry.message == ["b", "a"] &&
          (state.step? { module := "net", sinkCount := 2 }
            (.client 1)).map Prod.snd == some [.destroyReturned 1])
      (by decide +kernel)
  simp only [Bool.and_eq_true, beq_iff_eq, Option.map_eq_some_iff]
    at feature
  obtain ⟨⟨first, second⟩, ⟨next, _⟩, returns, rfl⟩ := feature
  obtain ⟨_, early, late, shape, _, unwritten⟩ :=
    synchronous_shutdown_loses_nothing reached returns 0 (by decide)
  exact ⟨observed, state, next, reached, returns, first, second, early,
    late, shape, unwritten⟩

end ConcLogger.Sync
