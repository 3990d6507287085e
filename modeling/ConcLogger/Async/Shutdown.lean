import ConcLogger.Async.Origins
import ConcLogger.Async.Pending
import ConcLogger.Concurrency.Record
import ConcLogger.DrainLoop.Stranding

namespace ConcLogger.Async

open Concurrency

/-!
# Shutdown

A program that lets every call return before it destroys the logger pushes
nothing once `~Logger` has begun.  The worker's last check of the deque is then
final: everything inserted and not evicted is written before `join` returns,
and the destructor flushes the sinks after that.
-/

variable {Thread : Type}

/-- Whether a client is idle can be seen from its phase. -/
instance decidableIdle
    (phase : Phase Thread) :
    Decidable (phase = .idle) :=
  decidable_of_iff (phase matches .idle) (by cases phase <;> simp)

/-- `~Logger` begins when no call is under way, and no call begins later. -/
def Orderly (state : State Thread) : Event Thread → Prop
  | .destroy _ => ∀ thread, state.phase thread = .idle
  | .log _ _ _ _ _ | .flush _ => state.destroyer = none
  | _ => True

instance decidableOrderly
    [Fintype Thread]
    [DecidableEq Thread]
    (state : State Thread) :
    ∀ event, Decidable (Orderly state event)
  | .destroy _ =>
      inferInstanceAs
        (Decidable (∀ thread, state.phase thread = .idle))
  | .log _ _ _ _ _ | .flush _ =>
      inferInstanceAs (Decidable (state.destroyer = none))
  | .client _ | .worker | .write _ | .advance _ | .notifyOne _ _
  | .wakeQueue _ | .wake _ =>
      .isTrue trivial

/-- Programs of `log()` calls: an orderly run in which nobody calls `flush`. -/
def Scripted (state : State Thread) : Event Thread → Prop
  | .flush _ => False
  | event => Orderly state event

instance decidableScripted
    [Fintype Thread]
    [DecidableEq Thread]
    (state : State Thread) :
    ∀ event, Decidable (Scripted state event)
  | .flush _ =>
      .isFalse id
  | .destroy _ =>
      inferInstanceAs
        (Decidable (∀ thread, state.phase thread = .idle))
  | .log _ _ _ _ _ =>
      inferInstanceAs (Decidable (state.destroyer = none))
  | .client _ | .worker | .write _ | .advance _ | .notifyOne _ _
  | .wakeQueue _ | .wake _ =>
      .isTrue trivial

/-- Programs are run in an orderly way. -/
theorem Scripted.orderly
    {state : State Thread}
    {event : Event Thread}
    (scripted : Scripted state event) :
    Orderly state event := by
  cases event with
  | flush thread =>
      exact scripted.elim
  | _ =>
      exact scripted

/-- The client is outside the logger or inside the destructor. -/
def Phase.Retired (phase : Phase Thread) : Prop :=
  phase = .idle ∨ phase.Destroying

/-- Once `~Logger` has begun every client is retired. -/
def Retired (state : State Thread) : Prop :=
  state.destroyer ≠ none →
  ∀ thread, (state.phase thread).Retired

section Steps

variable
  [DecidableEq Thread]
  {config : LoggerConfig}
  {state next : State Thread}
  {event : Event Thread}
  {emitted : List (Obs Thread)}

/-- A retired client stays retired. -/
private theorem ClientStep.retired
    {thread : Thread}
    (step : ClientStep config state thread emitted next)
    (retired : ∀ thread, (state.phase thread).Retired) :
    ∀ other, (next.phase other).Retired := by
  have mover := retired thread
  have moveTo
      {phase : Phase Thread}
      (moved : phase.Retired) :
      ∀ other,
        (Function.update state.phase thread phase other).Retired :=
    forall_update (fun _ (phase : Phase Thread) => phase.Retired)
      (fun other _ => retired other) moved
  cases step with
  | logReturn | flushReturn | destroyReturn =>
      exact moveTo (Or.inl rfl)
  | stop | stopped | join | destroySink =>
      exact moveTo (Or.inr trivial)
  | flushPass awaiting | flushBlock awaiting =>
      rcases awaiting with phase | ⟨phase, _⟩ <;>
        simp [phase, Phase.Retired, Phase.Destroying] at mover
  | count entry core seen phase | pushed item undelivered core seen phase
  | settle item undelivered phase | notify item phase
  | flushSleep phase | flushSink position phase =>
      simp [phase, Phase.Retired, Phase.Destroying] at mover

/-- Every orderly step keeps the clients retired. -/
theorem Retired.step
    (retired : Retired state)
    (orderly : Orderly state event)
    (step : Step config state event emitted next) :
    Retired next := by
  intro began
  cases step with
  | log thread | flush thread =>
      exact (began orderly).elim
  | destroy thread idle alive =>
      exact forall_update
        (fun _ (phase : Phase Thread) => phase.Retired)
        (fun other _ => Or.inl (orderly other)) (Or.inr trivial)
  | client thread emitted next step =>
      rw [step.destroyer_eq] at began
      exact step.retired (retired began)
  | worker event emitted next isWorker step =>
      rw [step.clients_eq.2] at began
      rw [step.clients_eq.1]
      exact retired began
  | inner | wake =>
      exact retired began

omit [DecidableEq Thread] in
/-- Once `~Logger` has begun no client is inside `push`. -/
theorem no_push_of_retired
    (retired : Retired state)
    (linked : Linked state)
    (began : state.destroyer ≠ none)
    (thread : Thread) :
    (state.core.shared.phase (.client thread)).member? ≠
      some .push := by
  rw [linked.clients thread]
  rcases retired began thread with idle | destroying
  · simp [idle, Phase.member?]
  · cases phase : state.phase thread <;>
      simp [phase, Phase.Destroying, Phase.member?] at destroying ⊢

omit [DecidableEq Thread] in
/-- In an orderly run no push begins after the worker's last check. -/
private theorem beforeLastCheck_of_retired
    (retired : Retired state)
    (byDestroyer : StoppedByDestroyer state)
    (linked : Linked state)
    (coreLinked : DrainLoop.Linked state.core)
    (stopped : DrainLoop.SecondStopped state.core)
    (inner : DrainLoop.Event Thread LogEntry) :
    DrainLoop.BeforeLastCheck state.core inner := by
  intro done
  obtain ⟨destroyer, isDestroyer⟩ :=
    byDestroyer (stopped (DrainLoop.second_of_lastCheckDone done))
  have began : state.destroyer ≠ none := by
    simp [isDestroyer]
  unfold DrainLoop.State.entersPush
  split
  · rename_i event party
    split
    · rename_i item policy phase
      have pushing :
          (state.core.shared.phase party).member? = some .push := by
        rw [phase]
        rfl
      obtain ⟨thread, rfl⟩ := coreLinked.exists_client (Or.inl pushing)
      exact (no_push_of_retired retired linked began thread
        pushing).elim
    · rfl
  · rfl

end Steps

section Reached

variable
  [DecidableEq Thread]
  {config : LoggerConfig}
  {observed : List (Obs Thread)}
  {state : State Thread}
  (reached :
    (machine Thread config).ReachesBy Orderly observed state)

include reached

/-- In every orderly run all clients are retired once `~Logger` has begun. -/
theorem Retired.of_reaches : Retired state :=
  reached.invariant
    (fun _ state => Retired state)
    (fun began => (began rfl).elim)
    (fun _ retired orderly taken =>
      retired.step orderly (Step.of_step? taken))

/-- An orderly run of the logger is a run without late pushes. -/
theorem reaches_core_before_last_check :
    (DrainLoop.machine Thread LogEntry
        config.policy.queueCapacity).ReachesBy
      DrainLoop.BeforeLastCheck (trace observed) state.core := by
  have initially :
      (machine Thread config).init.core =
        (DrainLoop.machine Thread LogEntry
          config.policy.queueCapacity).init :=
    rfl
  refine reached.project (fun state => state.core) Obs.queue?
    initially ?_
  intro observed emitted state next event before core _ taken
  rcases (Step.of_step? taken).core_cases with
    silent | ⟨inner, inside⟩
  · exact Or.inl silent
  · refine Or.inr ⟨inner, ?_, inside⟩
    exact beforeLastCheck_of_retired (Retired.of_reaches before)
      (StoppedByDestroyer.of_reaches before)
      (Linked.of_reaches before)
      (DrainLoop.Linked.of_reaches core)
      (DrainLoop.SecondStopped.of_reaches core) inner

/-- When the worker has finished, the deque of an orderly run is empty. -/
theorem data_eq_nil_of_finished
    {broke : Bool}
    (finished : state.core.control = .finished broke) :
    state.core.shared.queue.data = [] :=
  DrainLoop.Drained.of_reaches (reaches_core_before_last_check reached)
    (by simp [DrainLoop.State.lastCheckDone, finished])

end Reached

section Finished

variable
  {config : LoggerConfig}
  {observed : List (Obs Thread)}
  {state : State Thread}
  {broke : Bool}
  (linked : Linked state)
  (finished : state.core.control = .finished broke)

include linked finished

/-- A worker that has finished has nothing in its hands. -/
theorem stage_eq_ready_of_finished : state.stage = .ready :=
  linked.ready_of_no_current (by simp [State.current?, finished])

/-- A worker that has finished leaves nothing unsettled. -/
theorem unsettled_eq_nil_of_finished : state.unsettled = [] := by
  simp [State.unsettled, stage_eq_ready_of_finished linked finished,
    DrainLoop.State.outstanding, finished]

/-- When the worker has finished, everything handed out has been written. -/
theorem Delivered.written_eq_of_finished
    (delivered : Delivered config observed state)
    {position : Nat}
    (inside : position < config.sinkCount) :
    written position observed = Queue.handed (trace observed) := by
  rw [delivered.inside position inside, delivered.handed,
    unsettled_eq_nil_of_finished linked finished]
  simp [State.writtenAhead,
    stage_eq_ready_of_finished linked finished]

end Finished

/-- When the worker of an orderly run has finished, all that is left is written. -/
theorem written_eq_survivors_of_finished
    [DecidableEq Thread]
    {config : LoggerConfig}
    {observed : List (Obs Thread)}
    {state : State Thread}
    {broke : Bool}
    (reached :
      (machine Thread config).ReachesBy Orderly observed state)
    (finished : state.core.control = .finished broke)
    {position : Nat}
    (inside : position < config.sinkCount) :
    written position observed =
      survivors (Queue.inserted (trace observed))
        (Queue.evicted (trace observed)) := by
  have contents :=
    (Queue.Conserved.of_reaches (reaches_queue reached)).contents
  rw [data_eq_nil_of_finished reached finished, List.append_nil,
    ← (Delivered.of_reaches reached).written_eq_of_finished
      (.of_reaches reached) finished inside] at contents
  exact contents

section Watch

/-- The worker has left `drain_loop`. -/
def State.Finished (state : State Thread) : Prop :=
  ∃ broke, state.core.control = .finished broke

/-- What is known of `~Logger` from the phase of its caller. -/
def DestroyWatched
    (observed : List (Obs Thread))
    (finished : Prop)
    (thread : Thread) : Phase Thread → Prop
  | .destroyStop | .destroyStopping | .destroyJoining =>
      .destroyCalled thread ∈ observed
  | .destroySinks position =>
      finished ∧
        ∃ early late,
          observed = early ++ late ∧
            .destroyCalled thread ∈ early ∧
            (∀ sink, written sink late = []) ∧
            ∀ flushed < position, .sinkFlushed thread flushed ∈ late
  | _ => True

/-- Steps that write nothing leave the destructor under way. -/
theorem DestroyWatched.append
    {observed emitted : List (Obs Thread)}
    {finished finishedNext : Prop}
    {thread : Thread}
    {phase : Phase Thread}
    (watched : DestroyWatched observed finished thread phase)
    (kept : finished → finishedNext)
    (quiet : finished → ∀ sink, written sink emitted = []) :
    DestroyWatched (observed ++ emitted) finishedNext thread phase := by
  cases phase with
  | destroyStop | destroyStopping | destroyJoining =>
      exact List.mem_append_left _ watched
  | destroySinks position =>
      obtain ⟨isFinished, early, late, shape, called, unwritten, flushed⟩ :=
        watched
      refine ⟨kept isFinished, early, late ++ emitted, ?_, called,
        ?_, ?_⟩
      · rw [shape, List.append_assoc]
      · intro sink
        rw [written_append, unwritten sink, quiet isFinished sink,
          List.append_nil]
      · intro sink earlier
        exact List.mem_append_left _ (flushed sink earlier)
  | _ =>
      trivial

variable
  [DecidableEq Thread]
  {config : LoggerConfig}
  {observed emitted : List (Obs Thread)}
  {state next : State Thread}
  {event : Event Thread}
  {thread : Thread}
  {phase : Phase Thread}

/-- The worker does not come back. -/
theorem Step.finished_mono
    (step : Step config state event emitted next)
    (finished : state.Finished) :
    next.Finished := by
  obtain ⟨broke, control⟩ := finished
  refine ⟨broke, ?_⟩
  rcases step.core_cases with ⟨same, _⟩ | ⟨inner, taken⟩
  · rw [same, control]
  · exact (DrainLoop.Step.of_step? taken).control_of_finished control

/-- A worker that has finished writes nothing. -/
theorem Step.writes_nothing_of_finished
    (linked : Linked state)
    (step : Step config state event emitted next)
    (finished : state.Finished) :
    ∀ sink, written sink emitted = [] := by
  obtain ⟨broke, control⟩ := finished
  have ready := stage_eq_ready_of_finished linked control
  intro sink
  cases step with
  | client thread emitted next step =>
      exact step.settles_nothing.2 sink
  | worker event emitted next isWorker step =>
      cases step with
      | write position todo item stage =>
          rw [ready] at stage
          cases stage
      | _ =>
          simp
  | _ =>
      simp

/-- The calls of every thread are watched after one thread has moved. -/
private theorem forall_destroyWatched_moveTo
    (watched :
      ∀ thread,
        DestroyWatched observed state.Finished thread
          (state.phase thread))
    (linked : Linked state)
    (step : Step config state event emitted next)
    (moved : next.phase = Function.update state.phase thread phase)
    (mover :
      DestroyWatched (observed ++ emitted) next.Finished thread phase) :
    ∀ other,
      DestroyWatched (observed ++ emitted) next.Finished other
        (next.phase other) := by
  rw [moved]
  exact forall_update
    (DestroyWatched (observed ++ emitted) next.Finished)
    (fun other _ =>
      (watched other).append step.finished_mono
        (step.writes_nothing_of_finished linked))
    mover

/-- Every step keeps `~Logger` watched. -/
private theorem Step.destroyWatched
    (watched :
      ∀ thread,
        DestroyWatched observed state.Finished thread
          (state.phase thread))
    (linked : Linked state)
    (step : Step config state event emitted next) :
    ∀ other,
      DestroyWatched (observed ++ emitted) next.Finished other
        (next.phase other) := by
  have keep
      (same : next.phase = state.phase) :
      ∀ other,
        DestroyWatched (observed ++ emitted) next.Finished other
          (next.phase other) := by
    intro other
    rw [same]
    exact (watched other).append step.finished_mono
      (step.writes_nothing_of_finished linked)
  have move
      {thread : Thread}
      {phase : Phase Thread}
      (moved : next.phase = Function.update state.phase thread phase) :=
    forall_destroyWatched_moveTo watched linked step moved
  cases step with
  | log thread level message withThreadDump environment phase idle
      admitted =>
      refine move rfl ?_
      rcases admitted with ⟨_, rfl⟩ | ⟨entry, _, rfl⟩ <;> trivial
  | flush thread idle =>
      exact move rfl trivial
  | destroy thread idle alive =>
      refine move rfl ?_
      exact List.mem_append_right _ (List.mem_singleton.mpr rfl)
  | client thread emitted next step =>
      have before := watched thread
      cases step with
      | stop core seen phase | stopped core seen phase =>
          rw [phase] at before
          exact move rfl (List.mem_append_left _ before)
      | join broke phase control =>
          rw [phase] at before
          refine move rfl ⟨⟨broke, control⟩, observed, [], ?_, before,
            fun _ => rfl, by simp⟩
          rfl
      | destroySink position phase more =>
          rw [phase] at before
          obtain ⟨finished, early, late, shape, called, unwritten,
            flushed⟩ := before
          refine move rfl ⟨finished, early,
            late ++ [.sinkFlushed thread position], ?_, called, ?_, ?_⟩
          · rw [shape, List.append_assoc]
          · intro sink
            simp [unwritten sink]
          · intro sink earlier
            rcases Nat.lt_succ_iff_lt_or_eq.mp earlier with less | rfl
            · exact List.mem_append_left _ (flushed sink less)
            · simp
      | pushed | settle =>
          refine move rfl ?_
          split <;> trivial
      | _ =>
          exact move rfl trivial
  | worker event emitted next isWorker step =>
      exact keep step.clients_eq.1
  | inner | wake =>
      exact keep rfl

/-- In every reachable state `~Logger` is watched. -/
theorem DestroyWatched.of_reaches
    {allowed : State Thread → Event Thread → Prop}
    (reached :
      (machine Thread config).ReachesBy allowed observed state)
    (thread : Thread) :
    DestroyWatched observed state.Finished thread
      (state.phase thread) :=
  reached.invariant
    (fun observed state =>
      ∀ thread,
        DestroyWatched observed state.Finished thread
          (state.phase thread))
    (by
      intro thread
      trivial)
    (fun before watched _ taken =>
      (Step.of_step? taken).destroyWatched watched
        (Linked.of_reaches before))
    thread

/-- The destructor returns when it has been at every sink. -/
theorem Step.destroySinks_of_returned
    (step : Step config state event emitted next)
    (returned : .destroyReturned thread ∈ emitted) :
    ∃ position,
      state.phase thread = .destroySinks position ∧
        config.sinkCount ≤ position ∧
        next = state.moveTo thread .idle := by
  cases step with
  | client mover emitted next step =>
      cases step with
      | destroyReturn position phase done =>
          simp only [List.mem_singleton,
            Obs.destroyReturned.injEq] at returned
          subst returned
          exact ⟨position, phase, done, rfl⟩
      | _ =>
          simp at returned
  | worker event emitted next isWorker step =>
      cases step <;> simp [State.settling] at returned
  | _ =>
      simp at returned

/-- Once `~Logger` has returned, the worker has finished. -/
theorem finished_of_destroyReturned
    {allowed : State Thread → Event Thread → Prop}
    (reached :
      (machine Thread config).ReachesBy allowed observed state)
    (returned : .destroyReturned thread ∈ observed) :
    state.Finished ∧ state.destroyer ≠ none := by
  refine reached.invariant
    (fun observed state =>
      .destroyReturned thread ∈ observed →
      state.Finished ∧ state.destroyer ≠ none)
    (by simp) ?_ returned
  intro observed emitted state next event before ended _ taken
    returned
  have step := Step.of_step? taken
  have already : state.Finished ∧ state.destroyer ≠ none := by
    rcases List.mem_append.mp returned with earlier | now
    · exact ended earlier
    · obtain ⟨position, phase, _⟩ := step.destroySinks_of_returned now
      have watched := DestroyWatched.of_reaches before thread
      rw [phase] at watched
      have destroyer :=
        (Linked.of_reaches before).destroyer thread
          (by rw [phase]; trivial)
      exact ⟨watched.1, by simp [destroyer]⟩
  refine ⟨step.finished_mono already.1, ?_⟩
  obtain ⟨destroyer, isDestroyer⟩ :=
    Option.ne_none_iff_exists'.mp already.2
  simp [step.destroyer_mono isDestroyer]

end Watch

/-- When the worker has finished and all clients are retired, nothing is pending. -/
theorem pending_eq_zero_of_retired
    [DecidableEq Thread]
    [Fintype Thread]
    {config : LoggerConfig}
    {observed : List (Obs Thread)}
    {state : State Thread}
    {broke : Bool}
    (positive : 0 < config.policy.queueCapacity)
    (reached :
      (machine Thread config).ReachesBy Orderly observed state)
    (finished : state.core.control = .finished broke)
    (retired : ∀ thread, (state.phase thread).Retired) :
    state.pending = 0 := by
  have linked := Linked.of_reaches reached
  have counted := pending_eq_headcount positive reached
  have calls := headcount_inFlight_add_owing_le linked
  have noCalls :
      (headcount fun thread => (state.phase thread).inLog) = 0 := by
    refine Finset.card_eq_zero.mpr
      (Finset.filter_eq_empty_iff.mpr ?_)
    intro thread _
    rcases retired thread with idle | destroying
    · simp [idle, Phase.inLog]
    · cases phase : state.phase thread <;>
        simp [phase, Phase.Destroying, Phase.inLog] at destroying ⊢
  rw [data_eq_nil_of_finished reached finished,
    unsettled_eq_nil_of_finished linked finished] at counted
  simp only [List.length_nil] at counted
  omega

/--
When `~Logger` returns in an orderly run, every entry that was inserted and
not evicted has been written exactly once at every position in the order of
insertion, nothing is queued or pending, and the destructor has flushed each
sink after the last write.
-/
theorem shutdown_loses_nothing
    [DecidableEq Thread]
    [Fintype Thread]
    {config : LoggerConfig}
    {observed : List (Obs Thread)}
    {state next : State Thread}
    {event : Event Thread}
    {thread : Thread}
    (positive : 0 < config.policy.queueCapacity)
    (reached :
      (machine Thread config).ReachesBy Orderly observed state)
    (returns :
      state.step? config event =
        some (next, [.destroyReturned thread])) :
    (∀ position,
      position < config.sinkCount →
      written position observed =
          survivors (Queue.inserted (trace observed))
            (Queue.evicted (trace observed)) ∧
        (written position observed).Nodup) ∧
      next.core.shared.queue.data = [] ∧
      next.pending = 0 ∧
      ∀ position,
        position < config.sinkCount →
        ∃ early late,
          observed = early ++ .sinkFlushed thread position :: late ∧
            .destroyCalled thread ∈ early ∧
            ∀ sink, written sink late = [] := by
  obtain ⟨last, phase, done, rfl⟩ :=
    (Step.of_step? returns).destroySinks_of_returned
      (List.mem_singleton.mpr rfl)
  have linked := Linked.of_reaches reached
  have watched := DestroyWatched.of_reaches reached thread
  rw [phase] at watched
  obtain ⟨⟨broke, finished⟩, early, late, shape, called, unwritten,
    flushed⟩ := watched
  have nothing := data_eq_nil_of_finished reached finished
  have began : state.destroyer ≠ none := by
    rw [linked.destroyer thread (by rw [phase]; trivial)]
    exact Option.some_ne_none thread
  have zero :=
    pending_eq_zero_of_retired positive reached finished
      (Retired.of_reaches reached began)
  refine ⟨?_, nothing, zero, ?_⟩
  · intro position inside
    have inQueue := reaches_queue reached
    have conserved := Queue.Conserved.of_reaches inQueue
    have contents := conserved.contents
    rw [nothing, List.append_nil,
      ← (Delivered.of_reaches reached).written_eq_of_finished linked
        finished inside] at contents
    refine ⟨contents, ?_⟩
    rw [contents]
    exact (survivors_sublist _ _).nodup
      (conserved.inserted_nodup (Queue.Stamped.of_reaches inQueue))
  · intro position inside
    obtain ⟨between, rest, rfl⟩ :=
      List.append_of_mem
        (flushed position (Nat.lt_of_lt_of_le inside done))
    refine ⟨early ++ between, rest, ?_,
      List.mem_append_left _ called, ?_⟩
    · rw [shape, List.append_assoc]
    · intro sink
      have sinceJoin := unwritten sink
      simp only [written_append, List.append_eq_nil_iff] at sinceJoin
      simpa using sinceJoin.2

/--
The worker has not run when the destructor begins; the queued entry is written
before the destructor returns.
-/
theorem shutdown_loses_nothing_of_late_worker :
    ∃ (observed : List (Obs (Fin 1)))
      (state next : State (Fin 1)),
      (machine (Fin 1)
          { module := "net", sinkCount := 1 }).ReachesBy Orderly
          observed state ∧
        state.step? { module := "net", sinkCount := 1 } (.client 0) =
          some (next, [.destroyReturned 0]) ∧
        ((written 0 observed).map fun item => item.value.message) =
          ["kept"] ∧
        written 0 observed =
          survivors (Queue.inserted (trace observed))
            (Queue.evicted (trace observed)) ∧
        next.pending = 0 := by
  obtain ⟨observed, state, reached, feature⟩ :=
    (machine (Fin 1)
        { module := "net", sinkCount := 1 }).exists_reachesBy
      Orderly
      [.log 0 .warn "kept" false ⟨0, ⟨0, 1, 1, false, 0, 0⟩⟩,
        .client 0, .advance (.client 0),
        .notifyOne (.client 0) .worker, .client 0, .client 0,
        .destroy 0, .client 0, .advance (.client 0),
        .advance (.client 0), .advance (.client 0), .client 0,
        .worker, .advance .worker, .advance .worker, .worker,
        .worker, .write 0, .worker, .worker, .worker, .worker,
        .worker, .advance .worker, .worker, .worker,
        .advance .worker, .worker, .client 0, .client 0]
      (fun observed state =>
        ((written 0 observed).map fun item => item.value.message) ==
            ["kept"] &&
          (state.step? { module := "net", sinkCount := 1 }
            (.client 0)).map Prod.snd == some [.destroyReturned 0])
      (by decide +kernel)
  simp only [Bool.and_eq_true, beq_iff_eq,
    Option.map_eq_some_iff] at feature
  obtain ⟨wrote, ⟨next, _⟩, returns, rfl⟩ := feature
  have delivered := shutdown_loses_nothing (by decide) reached returns
  exact ⟨observed, state, next, reached, returns, wrote,
    (delivered.1 0 (by decide)).1, delivered.2.2.1⟩

end ConcLogger.Async
