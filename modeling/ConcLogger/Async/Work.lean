import ConcLogger.Async.Termination
import ConcLogger.DrainLoop.Work

namespace ConcLogger.Async

open Concurrency

/-!
# What the calls of a logger cost

Whatever the scheduler does, a run takes no more steps than its calls and its
spurious wakeups pay for: nobody spins, no notification is answered by another
one for ever, and no entry is handled twice.  A `log()` call pays for its way
through `push`, for what the worker does to its entry, for the drain that its
entry may cause and for waking everybody on both sides.
-/

variable {Thread : Type}

/-- What an entry costs inside the queue, in a batch and at the sinks. -/
def tariff
    (config : LoggerConfig)
    (Thread : Type)
    [Fintype Thread] :
    Queue.Tariff (Fintype.card (DrainLoop.Party Thread)) where
  queued :=
    config.sinkCount + 12 + 2 * Fintype.card Thread +
      2 * Fintype.card (DrainLoop.Party Thread)
  handed := config.sinkCount + 4 + 2 * Fintype.card Thread
  batch := 7
  covers := by omega

/-- The worker is one party more. -/
theorem card_party
    (Thread : Type)
    [Fintype Thread] :
    Fintype.card (DrainLoop.Party Thread) = Fintype.card Thread + 1 := by
  rw [Fintype.card_congr (DrainLoop.Party.equivOption Thread),
    Fintype.card_option]

/-- What a client has paid for outside the queue. -/
def Phase.cost
    (config : LoggerConfig)
    (threads : Nat)
    (asleep : Bool) :
    Phase Thread → Nat
  | .idle => 0
  | .logCounting _ => config.sinkCount + 6 * threads + 23
  | .logPushing | .logSettling _ _ => 3 + 2 * threads
  | .logNotifying _ => 2 + 2 * threads
  | .logReturning _ => 1
  | .flushLocking => config.sinkCount + 2
  | .flushBlocking => config.sinkCount + 1
  | .flushWaiting => config.sinkCount + if asleep then 0 else 2
  | .flushSinks position | .destroySinks position =>
      config.sinkCount - position + 1
  | .destroyStop => config.sinkCount + 4 * threads + 11
  | .destroyStopping | .destroyJoining => config.sinkCount + 2

/-- The price of an event: calls and spurious wakeups pay for all the others. -/
def Event.price
    (config : LoggerConfig)
    (threads : Nat) :
    Event Thread → Nat
  | .log _ _ _ _ _ => config.sinkCount + 6 * threads + 24
  | .flush _ => config.sinkCount + 3
  | .destroy _ => config.sinkCount + 4 * threads + 12
  | .wakeQueue _ | .wake _ => 3
  | .client _ | .worker | .write _ | .advance _ | .notifyOne _ _ => 0

variable [DecidableEq Thread] [Fintype Thread]

/-- What a client of a state has paid for outside the queue. -/
def State.cost
    (config : LoggerConfig)
    (state : State Thread)
    (thread : Thread) : Nat :=
  (state.phase thread).cost config (Fintype.card Thread)
    (decide (thread ∈ state.drainedCv.waiters))

/-- What all the clients have paid for outside the queue. -/
def State.clientCost
    (config : LoggerConfig)
    (state : State Thread) : Nat :=
  ∑ thread, state.cost config thread

/-- The steps that a logger still takes at most if nobody calls it any more. -/
def State.work
    (config : LoggerConfig)
    (state : State Thread) : Nat :=
  state.core.work (tariff config Thread) + stageLeft config state.stage +
    state.clientCost config

/-! ## The clients -/

section Costs

variable
  (config : LoggerConfig)
  {state next : State Thread}

omit [DecidableEq Thread] [Fintype Thread] in
/-- A waiter that is woken needs two steps more, everybody else needs none. -/
private theorem Phase.cost_le_add_two
    (threads : Nat)
    (phase : Phase Thread)
    (before after : Bool) :
    phase.cost config threads after ≤
      phase.cost config threads before + 2 := by
  cases phase with
  | flushWaiting =>
      simp only [Phase.cost]
      split <;> split <;> omega
  | _ =>
      exact Nat.le_add_right _ _

omit [DecidableEq Thread] [Fintype Thread] in
/-- Somebody who sleeps on needs no step more. -/
private theorem Phase.cost_le_of_asleep
    (threads : Nat)
    (phase : Phase Thread)
    {before after : Bool}
    (still : before = true → after = true) :
    phase.cost config threads after ≤ phase.cost config threads before := by
  cases phase with
  | flushWaiting =>
      cases before <;> cases after <;> simp [Phase.cost] at still ⊢
  | _ =>
      exact Nat.le_refl _

/-- When nobody is woken, only the client that moves changes its cost. -/
private theorem clientCost_le_of_mover
    {thread : Thread}
    (others :
      ∀ other, other ≠ thread → next.phase other = state.phase other)
    (still :
      ∀ other,
        other ≠ thread →
        other ∈ state.drainedCv.waiters →
        other ∈ next.drainedCv.waiters) :
    next.clientCost config + state.cost config thread ≤
      state.clientCost config + next.cost config thread := by
  have changed :=
    sum_le_of_gain (state.cost config) (next.cost config) (fun _ => 0) thread
      (by
        intro other different
        unfold State.cost
        rw [others other different]
        exact Phase.cost_le_of_asleep config _ _
          (by simpa using still other different))
  rw [Finset.sum_const_zero, Nat.add_zero] at changed
  exact changed

/-- When everybody is woken, each of the others needs two steps more at most. -/
private theorem clientCost_le_of_notifyAll
    {thread : Thread}
    (others :
      ∀ other, other ≠ thread → next.phase other = state.phase other) :
    next.clientCost config + state.cost config thread ≤
      state.clientCost config + next.cost config thread +
        2 * Fintype.card Thread := by
  have changed :=
    sum_le_of_gain (state.cost config) (next.cost config) (fun _ => 2) thread
      (by
        intro other different
        unfold State.cost
        rw [others other different]
        exact Phase.cost_le_add_two config _ _ _ _)
  rw [Finset.sum_const_nat fun _ _ => rfl, Finset.card_univ] at changed
  unfold State.clientCost
  omega

/-- A step that moves no client leaves what the clients have paid for. -/
private theorem clientCost_eq
    (phase : next.phase = state.phase)
    (drainedCv : next.drainedCv = state.drainedCv) :
    next.clientCost config = state.clientCost config := by
  unfold State.clientCost State.cost
  rw [phase, drainedCv]

/-- A client that gains by a step that moves nobody gains two steps. -/
private theorem clientCost_le_of_woken
    {thread : Thread}
    (phase : next.phase = state.phase)
    (still :
      ∀ other,
        other ≠ thread →
        other ∈ state.drainedCv.waiters →
        other ∈ next.drainedCv.waiters) :
    next.clientCost config ≤ state.clientCost config + 2 := by
  have changed :=
    clientCost_le_of_mover config (fun other _ => congrFun phase other) still
  have gained : next.cost config thread ≤ state.cost config thread + 2 := by
    unfold State.cost
    rw [phase]
    exact Phase.cost_le_add_two config _ _ _ _
  omega

/-- When the worker wakes everybody, each client needs two steps more at most. -/
private theorem clientCost_le_of_worker
    (phase : next.phase = state.phase) :
    next.clientCost config ≤
      state.clientCost config + 2 * Fintype.card Thread := by
  have each :
      next.clientCost config ≤
        ∑ other, (state.cost config other + 2) :=
    Finset.sum_le_sum fun other _ => by
      unfold State.cost
      rw [phase]
      exact Phase.cost_le_add_two config _ _ _ _
  rw [Finset.sum_add_distrib, Finset.sum_const_nat fun _ _ => rfl,
    Finset.card_univ] at each
  unfold State.clientCost at each ⊢
  omega

/-- A call into the queue or a return from it costs its price. -/
private theorem core_work_le
    (coreLinked : DrainLoop.Linked state.core)
    {core : DrainLoop.State Thread LogEntry}
    {called : DrainLoop.Event Thread LogEntry}
    {seen : List (Queue.Obs (DrainLoop.Party Thread) LogEntry)}
    (other : called ≠ .worker)
    (taken : state.core.step? called = some (core, seen)) :
    core.work (tariff config Thread) + called.own ≤
      state.core.work (tariff config Thread) +
        called.charge (tariff config Thread) := by
  refine (DrainLoop.Step.of_step? taken).work_le _ (Nat.le_refl _)
    coreLinked ?_
  cases called with
  | worker =>
      exact (other rfl).elim
  | _ =>
      rfl

end Costs

/-! ## One step -/

section Steps

variable
  {config : LoggerConfig}
  {state next : State Thread}
  {event : Event Thread}
  {emitted : List (Obs Thread)}

/-- A client's step is paid for by what the client has left. -/
private theorem ClientStep.work_lt
    {thread : Thread}
    (coreLinked : DrainLoop.Linked state.core)
    (step : ClientStep config state thread emitted next) :
    next.work config < state.work config := by
  have others :
      ∀ other, other ≠ thread → next.phase other = state.phase other := by
    intro other different
    cases step <;> simp [different]
  cases step with
  | count entry core seen phase taken =>
      have inside := core_work_le config coreLinked (by simp) taken
      have clients :=
        clientCost_le_of_mover config others (fun _ _ => id)
      have parties := card_party Thread
      simp [State.cost, phase, Phase.cost, DrainLoop.Event.own,
        DrainLoop.Event.charge] at inside clients
      simp [State.work, tariff] at inside ⊢
      omega
  | pushed item undelivered core seen phase returning taken =>
      have inside := core_work_le config coreLinked (by simp) taken
      have clients :=
        clientCost_le_of_mover config others (fun _ _ => id)
      by_cases some : 0 < undelivered <;>
        simp [State.cost, phase, Phase.cost, DrainLoop.Event.own,
          DrainLoop.Event.charge, some] at inside clients <;>
        simp [State.work, some] <;>
        omega
  | settle item undelivered phase =>
      have clients :=
        clientCost_le_of_mover config others (fun _ _ => id)
      by_cases last : state.pending = undelivered <;>
        simp [State.cost, phase, Phase.cost, last] at clients <;>
        simp [State.work, last] <;>
        omega
  | notify item phase =>
      have clients := clientCost_le_of_notifyAll config others
      simp [State.cost, phase, Phase.cost] at clients
      simp [State.work]
      omega
  | flushPass awaiting free zero =>
      have clients :=
        clientCost_le_of_mover config others (fun _ _ => id)
      rcases awaiting with phase | ⟨phase, awake⟩
      · simp [State.cost, phase, Phase.cost] at clients
        simp [State.work]
        omega
      · simp [State.cost, phase, awake, Phase.cost] at clients
        simp [State.work]
        omega
  | flushBlock awaiting free positive =>
      have clients :=
        clientCost_le_of_mover config others (fun _ _ => id)
      rcases awaiting with phase | ⟨phase, awake⟩
      · simp [State.cost, phase, Phase.cost] at clients
        simp [State.work]
        omega
      · simp [State.cost, phase, awake, Phase.cost] at clients
        simp [State.work]
        omega
  | flushSleep phase =>
      have clients :=
        clientCost_le_of_mover config others
          (fun _ _ asleep => by simp [asleep])
      simp [State.cost, phase, Phase.cost] at clients
      simp [State.work]
      omega
  | flushSink position phase more | destroySink position phase more =>
      have clients :=
        clientCost_le_of_mover config others (fun _ _ => id)
      simp [State.cost, phase, Phase.cost] at clients
      simp [State.work]
      omega
  | logReturn logged phase | flushReturn position phase
  | join broke phase | destroyReturn position phase =>
      have clients :=
        clientCost_le_of_mover config others (fun _ _ => id)
      simp [State.cost, phase, Phase.cost] at clients
      simp [State.work]
      omega
  | stop core seen phase taken =>
      have inside := core_work_le config coreLinked (by simp) taken
      have clients :=
        clientCost_le_of_mover config others (fun _ _ => id)
      have parties := card_party Thread
      simp [State.cost, phase, Phase.cost, DrainLoop.Event.own,
        DrainLoop.Event.charge] at inside clients
      simp [State.work]
      omega
  | stopped core seen phase returning taken =>
      have inside := core_work_le config coreLinked (by simp) taken
      have clients :=
        clientCost_le_of_mover config others (fun _ _ => id)
      simp [State.cost, phase, Phase.cost, DrainLoop.Event.own,
        DrainLoop.Event.charge] at inside clients
      simp [State.work]
      omega

/-- A step of the worker is paid for by its entry or by the queue. -/
private theorem WorkerStep.work_lt
    (linked : Linked state)
    (coreLinked : DrainLoop.Linked state.core)
    (step : WorkerStep config state emitted next) :
    next.work config < state.work config := by
  have consumes
      {core : DrainLoop.State Thread LogEntry}
      {seen : List (Queue.Obs (DrainLoop.Party Thread) LogEntry)}
      (busy : state.stage ≠ .ready)
      (taken : state.core.step? .worker = some (core, seen)) :
      core.work (tariff config Thread) +
          (tariff config Thread).handed =
        state.core.work (tariff config Thread) := by
    obtain ⟨item, current⟩ := linked.stage busy
    exact (DrainLoop.Step.of_step? taken).work_of_consumed _
      (State.consumed_of_current? current)
  have phase := step.clients_eq.1
  cases step with
  | move core seen stage nothing taken =>
      have inside :=
        (DrainLoop.Step.of_step? taken).work_le (tariff config Thread)
          (Nat.le_refl _) coreLinked
          (State.consumed_of_no_current nothing)
      have clients := clientCost_eq config phase rfl
      simp only [DrainLoop.Event.own, DrainLoop.Event.charge] at inside
      simp only [State.work]
      omega
  | dispatch item stage =>
      have clients := clientCost_eq config phase rfl
      simp only [LoggerConfig.dispatch] at clients
      simp only [State.work, stage, stageLeft, LoggerConfig.dispatch,
        Finset.card_range]
      omega
  | write position todo item stage current remains =>
      have clients := clientCost_eq config phase rfl
      have fewer := Finset.card_erase_lt_of_mem remains
      simp only [State.work, stage, stageLeft]
      omega
  | join stage =>
      have clients := clientCost_eq config phase rfl
      simp only [State.work, stage, stageLeft, Finset.card_empty]
      omega
  | settle core seen stage more taken =>
      have inside := consumes (by simp [stage]) taken
      have clients := clientCost_eq config phase rfl
      simp only [tariff] at inside
      simp only [State.work, stage, stageLeft, tariff]
      omega
  | settleLast stage =>
      have clients := clientCost_eq config phase rfl
      simp only [State.work, stage, stageLeft]
      omega
  | notify core seen stage taken =>
      have inside := consumes (by simp [stage]) taken
      have clients := clientCost_le_of_worker config phase
      simp only [tariff] at inside
      simp only [State.work, stage, stageLeft, tariff]
      omega

/-- Every step is paid for by its own price or by one that was paid before. -/
theorem Step.work_lt
    (linked : Linked state)
    (coreLinked : DrainLoop.Linked state.core)
    (step : Step config state event emitted next) :
    next.work config <
      state.work config + event.price config (Fintype.card Thread) := by
  have called
      (thread : Thread)
      (phase : Phase Thread)
      (other : Thread)
      (different : other ≠ thread) :
      (state.moveTo thread phase).phase other = state.phase other :=
    Function.update_of_ne different _ _
  cases step with
  | log thread level message withThreadDump environment phase idle
      admitted =>
      have clients :=
        clientCost_le_of_mover config (called thread phase) (fun _ _ => id)
      rcases admitted with ⟨_, rfl⟩ | ⟨entry, _, rfl⟩ <;>
        simp [State.cost, idle, Phase.cost] at clients <;>
        simp [State.work, Event.price] <;>
        omega
  | flush thread idle =>
      have clients :=
        clientCost_le_of_mover config (called thread .flushLocking)
          (fun _ _ => id)
      simp [State.cost, idle, Phase.cost] at clients
      simp [State.work, Event.price]
      omega
  | destroy thread idle alive =>
      have clients :
          ({ state.moveTo thread .destroyStop with
              destroyer := some thread } : State Thread).clientCost config +
            _ ≤ _ :=
        clientCost_le_of_mover config (called thread .destroyStop)
          (fun _ _ => id)
      simp [State.cost, idle, Phase.cost] at clients
      simp [State.work, Event.price]
      omega
  | client thread emitted next step =>
      exact Nat.lt_add_right _ (step.work_lt coreLinked)
  | worker event emitted next isWorker step =>
      exact Nat.lt_add_right _ (step.work_lt linked coreLinked)
  | inner event called core seen isCore taken =>
      have inside :=
        core_work_le config coreLinked (Event.ne_worker_of_core? isCore)
          taken
      have clients :
          ({ state with core := core } : State Thread).clientCost config =
            state.clientCost config :=
        clientCost_eq config rfl rfl
      simp only [State.work]
      cases event <;> cases isCore <;>
        simp only [DrainLoop.Event.own, DrainLoop.Event.charge,
          Event.price] at inside ⊢ <;>
        omega
  | wake thread asleep =>
      have clients :
          ({ state with drainedCv := state.drainedCv.rouse thread } :
              State Thread).clientCost config ≤
            state.clientCost config + 2 :=
        clientCost_le_of_woken config rfl (fun _ different still =>
          Condvar.mem_waiters_rouse.mpr ⟨different, still⟩)
      simp only [State.work, Event.price]
      omega

omit [DecidableEq Thread] [Fintype Thread] in
/-- Only calls and spurious wakeups are charged. -/
theorem Event.price_eq_zero
    (threads : Nat)
    (owned : event.party? ≠ none) :
    event.price config threads = 0 := by
  cases event <;> first | rfl | exact (owned rfl).elim

end Steps

/-! ## A whole run -/

section Runs

variable
  {config : LoggerConfig}
  {state final : State Thread}
  {observed emitted : List (Obs Thread)}
  {events : List (Event Thread)}

/-- What the constructor leaves to do: the worker's way into its first `drain`. -/
private theorem work_initial :
    (State.initial config : State Thread).work config =
      config.sinkCount + 12 := by
  have queue :
      (Queue.State.initial config.policy.queueCapacity :
          Queue.State (DrainLoop.Party Thread) LogEntry).work
        (tariff config Thread) = 0 := by
    simp [Queue.State.work, Queue.State.initial, BoundedQueue.new,
      Queue.State.cost, Queue.Phase.cost]
  have clients :
      (State.initial config : State Thread).clientCost config = 0 := by
    simp [State.clientCost, State.cost, State.initial, Phase.cost]
  rw [State.work, clients]
  simp only [State.initial, DrainLoop.State.work, DrainLoop.State.initial,
    DrainLoop.Control.cost, DrainLoop.loopLeft, stageLeft, queue,
    Bool.false_eq_true, if_false]
  omega

/--
Every run is paid for by its calls and its spurious wakeups, whatever the
scheduler does: with `n` client threads a `log()` call accounts for as many
steps as there are sinks and `6 n + 24` more, and what the logger still has to
do when the run breaks off is accounted for as well.
-/
theorem calls_pay_for_every_step
    (executed :
      (machine Thread config).run? (.initial config) events =
        some (final, emitted)) :
    events.length + final.work config ≤
      config.sinkCount + 12 +
        Machine.totalPrice (Event.price config (Fintype.card Thread))
          events := by
  have start :
      (machine Thread config).Reaches [] (machine Thread config).init :=
    .init
  have bounded :=
    Machine.ReachesBy.length_le (State.work config)
      (Event.price config (Fintype.card Thread))
      (fun reached _ taken =>
        (Step.of_step? taken).work_lt (.of_reaches reached)
          (.of_reaches (reaches_core reached)))
      start (Machine.runsBy_of_forall (fun _ _ => trivial) _ events)
      executed
  exact bounded.trans_eq (congrArg (· + _) work_initial)

/-- Two calls from a sleeping worker on, up to the last step of the destructor. -/
theorem calls_pay_for_every_step_of_late_insertion :
    ∃ (final : State (Fin 2)) (emitted : List (Obs (Fin 2))),
      (machine (Fin 2) narrow).run? (.initial narrow)
          ([.worker, .advance .worker, .advance .worker,
            .destroy 0, .client 0, .advance (.client 0)] ++
              lateInsertion 1 0) =
        some (final, emitted) ∧
      33 + final.work narrow ≤ 71 := by
  obtain ⟨⟨final, emitted⟩, executed⟩ :=
    Option.isSome_iff_exists.mp
      (show
        ((machine (Fin 2) narrow).run? (.initial narrow)
          ([.worker, .advance .worker, .advance .worker,
            .destroy 0, .client 0, .advance (.client 0)] ++
              lateInsertion 1 0)).isSome = true by
        decide +kernel)
  exact ⟨final, emitted, executed, calls_pay_for_every_step executed⟩

end Runs

end ConcLogger.Async
