import ConcLogger.Async.Delivery

namespace ConcLogger.Async

open Concurrency

/-!
# The pending counter

`pending_` counts every entry whose `fetch_sub` is still to come, wherever the
entry is: between `fetch_add` and the deciding critical section of its `push`,
in the deque, in a batch on its way to the worker, in the worker's batch, or
already lost with a result that a `log()` call still has to settle.
-/

variable {Thread : Type}

/-! ## What everybody still has to subtract -/

/-- What a client has been told by `push` and not yet subtracted. -/
def Phase.share : Phase Thread → Nat
  | .logSettling _ undelivered => undelivered
  | _ => 0

/-- What the worker still has to subtract for the batch in its hands. -/
def State.batchShare (state : State Thread) : Nat :=
  match state.core.control with
  | .entries _ next =>
      state.core.batch.length - next -
        (if state.stage = .notifying then 1 else 0)
  | _ => 0

/-- The batch share depends on the worker's local state only. -/
theorem State.batchShare_congr
    {state next : State Thread}
    (control : next.core.control = state.core.control)
    (batch : next.core.batch = state.core.batch)
    (stage : next.stage = state.stage) :
    next.batchShare = state.batchShare := by
  simp only [State.batchShare, control, batch, stage]

/-- While there is a current entry that is not settled, the share is positive. -/
theorem State.batchShare_pos
    {state : State Thread}
    {item : Item Thread}
    (current : state.current? = some item)
    (stage : state.stage ≠ .notifying) :
    0 < state.batchShare := by
  obtain ⟨second, position, control, entry⟩ :=
    State.entries_of_current? current
  obtain ⟨inside, _⟩ := List.getElem?_eq_some_iff.mp entry
  simp only [State.batchShare, control, stage, if_false]
  omega

section Balance

variable [Fintype Thread]

/-- `pending_` is the load of the queue and what is settled outside of it. -/
def Balanced (state : State Thread) : Prop :=
  state.pending =
    Queue.load state.core.shared + state.batchShare +
      ∑ thread, (state.phase thread).share

/-- `pending_` exceeds what is still to be subtracted by what has leaked. -/
def BalancedUpTo (leaked : Nat) (state : State Thread) : Prop :=
  state.pending =
    Queue.load state.core.shared + state.batchShare +
        (∑ thread, (state.phase thread).share) +
      leaked

variable
  [DecidableEq Thread]
  {config : LoggerConfig}
  {leaked : Nat}
  {state next : State Thread}

/-- A step of the queue changes the load by what it issues and settles. -/
private theorem load_of_core
    (coreLinked : DrainLoop.Linked state.core)
    {core : DrainLoop.State Thread LogEntry}
    {called : DrainLoop.Event Thread LogEntry}
    {inner : Queue.Event (DrainLoop.Party Thread) LogEntry}
    {seen : List (Queue.Obs (DrainLoop.Party Thread) LogEntry)}
    (isInner : called.shared? = some inner)
    (taken : state.core.step? called = some (core, seen)) :
    Queue.load core.shared + inner.settled state.core.shared =
      Queue.load state.core.shared + inner.issued :=
  (DrainLoop.State.queueStep_of_shared? isInner taken).load_eq
      coreLinked.blank

omit [Fintype Thread] in
/-- A step of the queue leaves the worker's share alone. -/
private theorem batchShare_of_core
    {core : DrainLoop.State Thread LogEntry}
    {called : DrainLoop.Event Thread LogEntry}
    {inner : Queue.Event (DrainLoop.Party Thread) LogEntry}
    {seen : List (Queue.Obs (DrainLoop.Party Thread) LogEntry)}
    (isInner : called.shared? = some inner)
    (taken : state.core.step? called = some (core, seen))
    (moved : next.core = core)
    (stage : next.stage = state.stage) :
    next.batchShare = state.batchShare := by
  subst moved
  obtain ⟨_, control, batch⟩ :=
    DrainLoop.State.step?_of_shared? isInner taken
  exact State.batchShare_congr control batch stage

/-- One client moves, and its share changes accordingly. -/
private theorem sum_share
    (state : State Thread)
    (thread : Thread)
    (phase : Phase Thread) :
    (∑ other, (Function.update state.phase thread phase other).share) +
        (state.phase thread).share =
      (∑ other, (state.phase other).share) + phase.share := by
  have change :=
    sum_change
      (fun other => (state.phase other).share)
      (fun other =>
        (Function.update state.phase thread phase other).share)
      thread
      (fun other different => by simp [different])
  simpa using change

variable (coreLinked : DrainLoop.Linked state.core)

include coreLinked

namespace BalancedUpTo

/-- One client moves and takes a step of the queue with it. -/
private theorem call
    (balanced : BalancedUpTo leaked state)
    {thread : Thread}
    {phase : Phase Thread}
    {called : DrainLoop.Event Thread LogEntry}
    {inner : Queue.Event (DrainLoop.Party Thread) LogEntry}
    {seen : List (Queue.Obs (DrainLoop.Party Thread) LogEntry)}
    (isInner : called.shared? = some inner)
    (taken : state.core.step? called = some (next.core, seen))
    (stage : next.stage = state.stage)
    (moved : next.phase = Function.update state.phase thread phase)
    (amount :
      next.pending + inner.settled state.core.shared +
          (state.phase thread).share =
        state.pending + inner.issued + phase.share) :
    BalancedUpTo leaked next := by
  have loads := load_of_core coreLinked isInner taken
  have shares := sum_share state thread phase
  have same := batchShare_of_core isInner taken rfl stage
  unfold BalancedUpTo at balanced ⊢
  rw [moved, same]
  omega

omit coreLinked in
/-- One client moves outside the queue. -/
private theorem move
    (balanced : BalancedUpTo leaked state)
    {thread : Thread}
    {phase : Phase Thread}
    (core : next.core = state.core)
    (stage : next.stage = state.stage)
    (moved : next.phase = Function.update state.phase thread phase)
    (amount :
      next.pending + (state.phase thread).share =
        state.pending + phase.share) :
    BalancedUpTo leaked next := by
  have shares := sum_share state thread phase
  have same : next.batchShare = state.batchShare :=
    State.batchShare_congr (by rw [core]) (by rw [core]) stage
  unfold BalancedUpTo at balanced ⊢
  rw [moved, same, core]
  omega

omit coreLinked [DecidableEq Thread] in
/-- No client has to subtract more than is pending. -/
theorem share_le_pending
    (balanced : BalancedUpTo leaked state)
    (thread : Thread) :
    (state.phase thread).share ≤ state.pending := by
  have included :=
    le_sum (fun other => (state.phase other).share) thread
  unfold BalancedUpTo at balanced
  omega

omit coreLinked [DecidableEq Thread] in
/-- The worker does not have to subtract more than is pending. -/
theorem batchShare_le_pending
    (balanced : BalancedUpTo leaked state) :
    state.batchShare ≤ state.pending := by
  unfold BalancedUpTo at balanced
  omega

/-- Every step of a client keeps the balance. -/
theorem clientStep
    {thread : Thread}
    {emitted : List (Obs Thread)}
    (balanced : BalancedUpTo leaked state)
    (step : ClientStep config state thread emitted next) :
    BalancedUpTo leaked next := by
  cases step with
  | count entry core seen phase taken =>
      refine balanced.call coreLinked rfl taken rfl rfl ?_
      simp [phase, Phase.share, Queue.Event.settled,
        Queue.Event.issued]
  | pushed item undelivered core seen phase returning taken =>
      refine balanced.call coreLinked rfl taken rfl rfl ?_
      simp only [phase, Phase.share, Queue.Event.settled, returning,
        Queue.Event.issued, Queue.Phase.weight]
      split
      · rfl
      · simp only [State.pending_moveTo]
        omega
  | settle item undelivered phase =>
      have enough : undelivered ≤ state.pending := by
        have included := balanced.share_le_pending thread
        rwa [phase] at included
      have nothingLeft :
          (if state.pending = undelivered then
              Phase.logNotifying item
            else
              .logReturning (some item)).share = 0 := by
        split <;> rfl
      refine balanced.move rfl rfl rfl ?_
      rw [phase, nothingLeft]
      change fetchSub state.pending undelivered + undelivered =
        state.pending + 0
      rw [fetchSub_of_le enough]
      exact Nat.sub_add_cancel enough
  | stop core seen phase taken =>
      refine balanced.call coreLinked rfl taken rfl rfl ?_
      simp [phase, Phase.share, Queue.Event.settled,
        Queue.Event.issued]
  | stopped core seen phase returning taken =>
      refine balanced.call coreLinked rfl taken rfl rfl ?_
      simp [phase, returning, Phase.share, Queue.Event.settled,
        Queue.Event.issued, Queue.Phase.weight]
  | flushPass awaiting | flushBlock awaiting =>
      refine balanced.move rfl rfl rfl ?_
      rcases awaiting with phase | ⟨phase, _⟩ <;>
        simp [phase, Phase.share]
  | notify item phase | logReturn logged phase
  | flushSleep phase | flushSink position phase
  | flushReturn position phase | join broke phase
  | destroySink position phase | destroyReturn position phase =>
      refine balanced.move rfl rfl rfl ?_
      simp [phase, Phase.share]

omit coreLinked [Fintype Thread] in
/-- At a current entry the worker's own step goes on to the next one. -/
private theorem core_of_current?
    {core : DrainLoop.State Thread LogEntry}
    {seen : List (Queue.Obs (DrainLoop.Party Thread) LogEntry)}
    {item : Item Thread}
    (current : state.current? = some item)
    (taken : state.core.step? .worker = some (core, seen)) :
    ∃ second position,
      state.core.control = .entries second position ∧
        position < state.core.batch.length ∧
        core =
          { state.core with
            control := .entries second (position + 1) } := by
  obtain ⟨second, position, control, entry⟩ :=
    State.entries_of_current? current
  obtain ⟨inside, _⟩ := List.getElem?_eq_some_iff.mp entry
  refine ⟨second, position, control, inside, ?_⟩
  cases DrainLoop.Step.of_step? taken with
  | consume second' position' control' =>
      rw [control] at control'
      cases control'
      rfl
  | clear second' position' control' done =>
      rw [control] at control'
      cases control'
      exact (Nat.not_le_of_lt inside done).elim
  | queue event inner emitted shared isInner =>
      cases isInner
  | callDrain second' control' | handOut second' out control'
  | giveUp second' out control' | callEmpty control'
  | checked result control' =>
      rw [control] at control'
      cases control'

omit coreLinked in
/-- Between two entries the worker moves weight from the queue to its batch. -/
private theorem load_of_worker
    {core : DrainLoop.State Thread LogEntry}
    {seen : List (Queue.Obs (DrainLoop.Party Thread) LogEntry)}
    (stage : state.stage = .ready)
    (nothing : state.current? = none)
    (taken : state.core.step? .worker = some (core, seen)) :
    Queue.load core.shared +
        ({ state with core := core } : State Thread).batchShare =
      Queue.load state.core.shared + state.batchShare := by
  cases DrainLoop.Step.of_step? taken with
  | queue event inner emitted shared isInner =>
      cases isInner
  | callDrain second control idle =>
      have moved :=
        Queue.load_moveTo state.core.shared .worker
          (.drain state.core.batch)
      rw [idle] at moved
      simpa [State.batchShare, control, Queue.Phase.weight] using moved
  | handOut second out control returning =>
      have moved :=
        Queue.load_moveTo state.core.shared .worker .idle
      rw [returning] at moved
      simpa [State.batchShare, control, stage,
        Queue.Phase.weight] using moved
  | giveUp second out control returning =>
      have moved :=
        Queue.load_moveTo state.core.shared .worker .idle
      rw [returning] at moved
      cases second <;>
        simpa [State.batchShare, control,
          Queue.Phase.weight] using moved
  | consume second position control more =>
      simp [State.current?, control, more] at nothing
  | clear second position control done =>
      cases second <;>
        simp [State.batchShare, control, Nat.sub_eq_zero_of_le done]
  | callEmpty control idle =>
      have moved :=
        Queue.load_moveTo state.core.shared .worker .empty
      rw [idle] at moved
      simpa [State.batchShare, control, Queue.Phase.weight] using moved
  | checked result control returning =>
      have moved :=
        Queue.load_moveTo state.core.shared .worker .idle
      rw [returning] at moved
      cases result <;>
        simpa [State.batchShare, control,
          Queue.Phase.weight] using moved

omit coreLinked in
/-- Every step of the worker keeps the balance. -/
theorem workerStep
    {emitted : List (Obs Thread)}
    (balanced : BalancedUpTo leaked state)
    (linked : Linked state)
    (step : WorkerStep config state emitted next) :
    BalancedUpTo leaked next := by
  cases step with
  | move core seen stage nothing taken =>
      have loads := load_of_worker stage nothing taken
      unfold BalancedUpTo at balanced ⊢
      rw [loads]
      exact balanced
  | dispatch item stage | write position todo item stage
  | join stage =>
      unfold BalancedUpTo at balanced ⊢
      simpa [State.batchShare, stage] using balanced
  | settle core seen stage more taken =>
      obtain ⟨item, current⟩ := linked.stage (by simp [stage])
      obtain ⟨second, position, control, inside, rfl⟩ :=
        core_of_current? current taken
      have pending := balanced.batchShare_le_pending
      unfold BalancedUpTo at balanced ⊢
      simp only [State.batchShare, control, stage, reduceCtorEq,
        if_false] at balanced pending ⊢
      rw [fetchSub_of_le (by omega)]
      omega
  | settleLast stage last =>
      obtain ⟨item, current⟩ := linked.stage (by simp [stage])
      obtain ⟨second, position, control, entry⟩ :=
        State.entries_of_current? current
      obtain ⟨inside, _⟩ := List.getElem?_eq_some_iff.mp entry
      unfold BalancedUpTo at balanced ⊢
      simp only [State.batchShare, control, stage, reduceCtorEq,
        if_false, if_true] at balanced ⊢
      rw [fetchSub_of_le (by omega)]
      omega
  | notify core seen stage taken =>
      obtain ⟨item, current⟩ := linked.stage (by simp [stage])
      obtain ⟨second, position, control, inside, rfl⟩ :=
        core_of_current? current taken
      unfold BalancedUpTo at balanced ⊢
      simp only [State.batchShare, control, stage, reduceCtorEq,
        if_false, if_true] at balanced ⊢
      omega

/-- Every step keeps the balance. -/
theorem step
    {event : Event Thread}
    {emitted : List (Obs Thread)}
    (balanced : BalancedUpTo leaked state)
    (linked : Linked state)
    (step : Step config state event emitted next) :
    BalancedUpTo leaked next := by
  cases step with
  | log thread level message withThreadDump environment phase idle
      admitted =>
      refine balanced.move rfl rfl rfl ?_
      rcases admitted with ⟨_, rfl⟩ | ⟨entry, _, rfl⟩ <;>
        simp [idle, Phase.share]
  | flush thread idle | destroy thread idle =>
      refine balanced.move rfl rfl rfl ?_
      simp [idle, Phase.share]
  | client thread emitted next step =>
      exact balanced.clientStep coreLinked step
  | worker event emitted next isWorker step =>
      exact balanced.workerStep linked step
  | inner event called core seen isCore taken =>
      have other := Event.ne_worker_of_core? isCore
      obtain ⟨inner, isInner⟩ := DrainLoop.Event.exists_shared? other
      have quiet :
          inner.settled state.core.shared = 0 ∧ inner.issued = 0 := by
        cases event <;> cases isCore <;> cases isInner <;>
          exact ⟨rfl, rfl⟩
      have loads :
          Queue.load core.shared = Queue.load state.core.shared := by
        have change := load_of_core coreLinked isInner taken
        rwa [quiet.1, quiet.2] at change
      have same :
          ({ state with core := core } : State Thread).batchShare =
            state.batchShare :=
        batchShare_of_core isInner taken rfl rfl
      unfold BalancedUpTo at balanced ⊢
      rw [same]
      change state.pending =
        Queue.load core.shared + state.batchShare +
            (∑ thread, (state.phase thread).share) +
          leaked
      rw [loads]
      exact balanced
  | wake =>
      exact balanced

omit coreLinked [DecidableEq Thread] in
/-- A new logger has nothing to subtract and nothing has leaked. -/
theorem initial
    (config : LoggerConfig) :
    BalancedUpTo 0 (.initial config : State Thread) := by
  simp [BalancedUpTo, State.initial, Queue.load,
    Queue.State.initial, BoundedQueue.new, Queue.Phase.weight,
    State.batchShare, DrainLoop.State.initial, Phase.share]

end BalancedUpTo

omit coreLinked in
/-- In every reachable state `pending_` is balanced. -/
theorem Balanced.of_reaches
    {allowed : State Thread → Event Thread → Prop}
    {observed : List (Obs Thread)}
    (reached :
      (machine Thread config).ReachesBy allowed observed state) :
    Balanced state := by
  refine reached.invariant
    (fun _ state => BalancedUpTo 0 state)
    (BalancedUpTo.initial config) ?_
  intro observed emitted state next event before balanced _ taken
  exact balanced.step
    (DrainLoop.Linked.of_reaches (reaches_core before))
    (Linked.of_reaches before) (Step.of_step? taken)

end Balance

/-! ## Counting entries and calls -/

/-- The call has done its `fetch_add` and its `push` has not decided yet. -/
def State.inFlight (state : State Thread) (thread : Thread) : Bool :=
  (state.core.shared.phase (.client thread)).undecided?.isSome

/-- The call's `push` reported a lost entry and its `fetch_sub` has not run. -/
def State.owing (state : State Thread) (thread : Thread) : Bool :=
  match state.core.shared.phase (.client thread),
      state.phase thread with
  | .pushNotifying _ undelivered, _
  | .pushReturning _ undelivered, _
  | _, .logSettling _ undelivered => undelivered == 1
  | _, _ => false

/-- The thread is inside `log`. -/
def Phase.inLog : Phase Thread → Bool
  | .logCounting _ | .logPushing | .logSettling _ _
  | .logNotifying _ | .logReturning _ => true
  | _ => false

/-- How many threads satisfy a test. -/
def headcount [Fintype Thread] (counted : Thread → Bool) : Nat :=
  (Finset.univ.filter fun thread => counted thread = true).card

/-- A `log()` call has one lost entry to subtract at most. -/
def SettlesOne (state : State Thread) : Prop :=
  ∀ thread item undelivered,
    state.phase thread = .logSettling item undelivered →
    undelivered = 1

section Counting

variable
  [DecidableEq Thread]
  {config : LoggerConfig}
  {state next : State Thread}
  {allowed : State Thread → Event Thread → Prop}
  {observed : List (Obs Thread)}

/-- Every step leaves at most one lost entry to each call. -/
theorem SettlesOne.step
    {event : Event Thread}
    {emitted : List (Obs Thread)}
    (settlesOne : SettlesOne state)
    (bounded : Queue.Bounded state.core.shared)
    (step : Step config state event emitted next) :
    SettlesOne next := by
  have move :
      ∀ thread (phase : Phase Thread),
        (∀ item undelivered,
          phase = .logSettling item undelivered → undelivered = 1) →
        ∀ other item undelivered,
          Function.update state.phase thread phase other =
            .logSettling item undelivered →
          undelivered = 1 := by
    intro thread phase moved
    exact forall_update
      (fun _ (phase : Phase Thread) =>
        ∀ item undelivered,
          phase = .logSettling item undelivered → undelivered = 1)
      (fun other _ => settlesOne other) moved
  cases step with
  | log thread level message withThreadDump environment phase idle
      admitted =>
      apply move thread phase
      rcases admitted with ⟨_, rfl⟩ | ⟨entry, _, rfl⟩ <;> simp
  | flush thread | destroy thread =>
      exact move thread _ (by simp)
  | client thread emitted next step =>
      cases step with
      | pushed item undelivered core seen phase returning =>
          apply move thread _
          intro settling amount shape
          split at shape
          · rename_i positive
            have small := bounded.phases (.client thread)
            simp only [returning, Queue.Phase.Within] at small
            cases shape
            omega
          · cases shape
      | settle item undelivered =>
          apply move thread _
          intro settling amount shape
          split at shape <;> cases shape
      | _ =>
          exact move thread _ (by simp)
  | worker event emitted next isWorker step =>
      cases step <;> exact settlesOne
  | inner | wake =>
      exact settlesOne

/-- In every reachable state a call has one entry to subtract at most. -/
theorem SettlesOne.of_reaches
    (reached :
      (machine Thread config).ReachesBy allowed observed state) :
    SettlesOne state :=
  reached.invariant
    (fun _ state => SettlesOne state)
    (by
      intro thread item undelivered shape
      cases shape)
    (fun before settlesOne _ taken =>
      settlesOne.step
        (Queue.Bounded.of_reaches (reaches_queue before))
        (Step.of_step? taken))

omit [DecidableEq Thread] in
/-- Only a call inside `push` is inside that member function of the queue. -/
private theorem eq_logPushing_of_member?
    {phase : Phase Thread}
    (member : phase.member? = some .push) :
    phase = .logPushing := by
  cases phase <;> simp [Phase.member?] at member ⊢

omit [DecidableEq Thread] in
/-- A client weighs one entry if it is in flight or owes one, else nothing. -/
private theorem weight_add_share
    (linked : Linked state)
    (coreLinked : DrainLoop.Linked state.core)
    (defined : Queue.Defined state.core.shared)
    (bounded : Queue.Bounded state.core.shared)
    (settlesOne : SettlesOne state)
    (thread : Thread) :
    (state.core.shared.phase (.client thread)).weight +
        (state.phase thread).share =
      (state.inFlight thread).toNat + (state.owing thread).toNat := by
  have member := linked.clients thread
  have outside := coreLinked.clients thread
  have small := bounded.phases (.client thread)
  unfold State.inFlight State.owing
  cases inQueue : state.core.shared.phase (.client thread) with
  | idle =>
      cases phase : state.phase thread with
      | logSettling item undelivered =>
          have one := settlesOne thread item undelivered phase
          simp [one, Queue.Phase.weight, Phase.share,
            Queue.Phase.undecided?]
      | _ =>
          simp [Queue.Phase.weight, Phase.share,
            Queue.Phase.undecided?]
  | push | pushBlocking | pushWaiting =>
      rw [inQueue] at member
      have pushing := eq_logPushing_of_member? member.symm
      simp [pushing, Queue.Phase.weight, Phase.share,
        Queue.Phase.undecided?]
  | pushNotifying item undelivered
  | pushReturning item undelivered =>
      rw [inQueue] at member small
      have pushing := eq_logPushing_of_member? member.symm
      have few : undelivered = 0 ∨ undelivered = 1 :=
        Nat.le_one_iff_eq_zero_or_eq_one.mp small
      rcases few with rfl | rfl <;>
        simp [pushing, Queue.Phase.weight, Phase.share,
          Queue.Phase.undecided?]
  | undefined item =>
      exact (defined (.client thread) item inQueue).elim
  | stop | stopNotifyingEmpty | stopNotifyingFull | stopReturning =>
      rw [inQueue] at member
      cases phase : state.phase thread <;>
        simp [phase, Queue.Phase.member?, Phase.member?] at member
      simp [Queue.Phase.weight, Phase.share,
        Queue.Phase.undecided?]
  | drain | drainBlocking | drainWaiting | drainNotifying
  | drainReturning | empty | emptyReturning =>
      simp [inQueue, Queue.Phase.member?] at outside

omit [DecidableEq Thread] in
/-- The worker weighs the batch that is on its way, if it has no other. -/
private theorem weight_add_batchShare
    (linked : Linked state)
    (coreLinked : DrainLoop.Linked state.core) :
    (state.core.shared.phase .worker).weight + state.batchShare =
      state.unsettled.length := by
  have member := coreLinked.worker
  have outsidePush :
      (state.core.shared.phase .worker).member? ≠ some .push := by
    rw [member]
    cases state.core.control <;> simp [DrainLoop.Control.member?]
  rw [DrainLoop.weight_eq_length_handedBy outsidePush]
  cases control : state.core.control with
  | entries second position =>
      have idle : state.core.shared.phase .worker = .idle := by
        rw [control] at member
        exact Queue.Phase.eq_idle_of_member? member
      by_cases notifying : state.stage = .notifying
      · simp [idle, DrainLoop.handedBy, State.batchShare,
          State.unsettled, DrainLoop.State.outstanding, control,
          notifying, Nat.sub_sub]
      · simp [idle, DrainLoop.handedBy, State.batchShare,
          State.unsettled, DrainLoop.State.outstanding, control,
          notifying]
  | draining second =>
      have ready : state.stage = .ready :=
        linked.ready_of_no_current (by simp [State.current?, control])
      simp [State.batchShare, State.unsettled,
        DrainLoop.State.outstanding, control, ready]
  | _ =>
      have nothing :
          DrainLoop.handedBy (state.core.shared.phase .worker) = [] := by
        apply DrainLoop.handedBy_eq_nil
        rw [member, control]
        simp [DrainLoop.Control.member?]
      simp [nothing, State.batchShare, State.unsettled,
        DrainLoop.State.outstanding, control]

variable [Fintype Thread]

omit [DecidableEq Thread] in
/--
What is still to be subtracted are the queued entries, the unsettled entries
of the worker's batch, the calls in flight and the calls that owe a
subtraction.
-/
theorem BalancedUpTo.pending_eq
    {leaked : Nat}
    (balanced : BalancedUpTo leaked state)
    (linked : Linked state)
    (coreLinked : DrainLoop.Linked state.core)
    (defined : Queue.Defined state.core.shared)
    (bounded : Queue.Bounded state.core.shared)
    (settlesOne : SettlesOne state) :
    state.pending =
      state.core.shared.queue.data.length + state.unsettled.length +
          headcount state.inFlight + headcount state.owing +
        leaked := by
  have clients :
      (∑ thread, (state.core.shared.phase (.client thread)).weight) +
          ∑ thread, (state.phase thread).share =
        headcount state.inFlight + headcount state.owing := by
    simp only [headcount, card_filter_eq_sum]
    rw [← Finset.sum_add_distrib, ← Finset.sum_add_distrib]
    refine Finset.sum_congr rfl ?_
    intro thread _
    exact weight_add_share linked coreLinked defined bounded
      settlesOne thread
  have worker := weight_add_batchShare linked coreLinked
  unfold BalancedUpTo Queue.load at balanced
  rw [DrainLoop.sum_party] at balanced
  omega

/--
`pending_` counts the queued entries, the unsettled entries of the worker's
batch, the calls in flight and the calls that owe a subtraction.
-/
theorem pending_eq_headcount
    (positive : 0 < config.policy.queueCapacity)
    (reached :
      (machine Thread config).ReachesBy allowed observed state) :
    state.pending =
      state.core.shared.queue.data.length + state.unsettled.length +
        headcount state.inFlight + headcount state.owing := by
  have inQueue := reaches_queue reached
  have balanced : BalancedUpTo 0 state := Balanced.of_reaches reached
  exact balanced.pending_eq (Linked.of_reaches reached)
    (DrainLoop.Linked.of_reaches (reaches_core reached))
    (Queue.Defined.of_reaches positive inQueue)
    (Queue.Bounded.of_reaches inQueue)
    (SettlesOne.of_reaches reached)

omit [DecidableEq Thread] in
/-- Calls in flight and calls that owe a subtraction are inside `log`. -/
theorem headcount_inFlight_add_owing_le
    (linked : Linked state) :
    headcount state.inFlight + headcount state.owing ≤
      headcount fun thread => (state.phase thread).inLog := by
  simp only [headcount, card_filter_eq_sum]
  rw [← Finset.sum_add_distrib]
  apply Finset.sum_le_sum
  intro thread _
  have member := linked.clients thread
  unfold State.inFlight State.owing
  cases inQueue : state.core.shared.phase (.client thread) with
  | push | pushBlocking | pushWaiting =>
      rw [inQueue] at member
      have pushing := eq_logPushing_of_member? member.symm
      simp [pushing, Queue.Phase.undecided?, Phase.inLog]
  | pushNotifying item undelivered
  | pushReturning item undelivered =>
      rw [inQueue] at member
      have pushing := eq_logPushing_of_member? member.symm
      simpa [pushing, Queue.Phase.undecided?, Phase.inLog] using
        Bool.toNat_le (undelivered == 1)
  | _ =>
      cases phase : state.phase thread with
      | logSettling item undelivered =>
          simpa [Queue.Phase.undecided?, Phase.inLog] using
            Bool.toNat_le (undelivered == 1)
      | _ =>
          simp [Queue.Phase.undecided?]

/--
`pending_` counts exactly the entries that are still to be settled, no
`fetch_sub` wraps it below zero, and it stays within twice the capacity plus
the number of `log()` calls in progress.
-/
theorem pending_is_accounted_for
    (positive : 0 < config.policy.queueCapacity)
    (reached : (machine Thread config).Reaches observed state) :
    state.pending =
        state.core.shared.queue.data.length + state.unsettled.length +
          headcount state.inFlight + headcount state.owing ∧
      (∀ thread item undelivered,
        state.phase thread = .logSettling item undelivered →
        undelivered ≤ state.pending) ∧
      (state.stage = .settling → 1 ≤ state.pending) ∧
      state.pending ≤
        2 * config.policy.queueCapacity +
          headcount fun thread => (state.phase thread).inLog := by
  have counted := pending_eq_headcount positive reached
  have balanced : BalancedUpTo 0 state := Balanced.of_reaches reached
  have linked := Linked.of_reaches reached
  refine ⟨counted, ?_, ?_, ?_⟩
  · intro thread item undelivered phase
    have included := balanced.share_le_pending thread
    rwa [phase] at included
  · intro stage
    obtain ⟨item, current⟩ := linked.stage (by simp [stage])
    exact (State.batchShare_pos current (by simp [stage])).trans_le
      balanced.batchShare_le_pending
  · have calls := headcount_inFlight_add_owing_le linked
    have queued := DrainLoop.data_le_capacity (reaches_core reached)
    have handedOut :=
      DrainLoop.outstanding_le_capacity (reaches_core reached)
    have unsettled :
        state.unsettled.length ≤ state.core.outstanding.length := by
      unfold State.unsettled
      split <;> simp
    omega

end Counting

/--
Capacity one and three calls: one entry is queued, one call owes the
subtraction for the evicted entry, one call is in flight.
-/
theorem pending_is_accounted_for_after_eviction :
    ∃ (observed : List (Obs (Fin 3)))
      (state : State (Fin 3)),
      (machine (Fin 3)
          { module := "net"
            sinkCount := 1
            policy := {
              queueCapacity := 1
              overflowPolicy := .dropOldest } }).Reaches
          observed state ∧
        state.pending = 3 ∧
        state.pending =
          state.core.shared.queue.data.length +
              state.unsettled.length +
            headcount state.inFlight + headcount state.owing ∧
        state.pending ≤
          2 * 1 +
            headcount fun thread => (state.phase thread).inLog := by
  obtain ⟨observed, state, reached, feature⟩ :=
    (machine (Fin 3)
      { module := "net"
        sinkCount := 1
        policy := {
          queueCapacity := 1
          overflowPolicy := .dropOldest } }).exists_reaches
      [.log 0 .warn "first" false ⟨0, ⟨0, 1, 1, false, 0, 0⟩⟩,
        .client 0, .advance (.client 0),
        .notifyOne (.client 0) .worker, .client 0, .client 0,
        .log 1 .warn "second" false ⟨1, ⟨0, 1, 1, false, 0, 0⟩⟩,
        .client 1, .advance (.client 1),
        .notifyOne (.client 1) .worker, .client 1,
        .log 2 .warn "third" false ⟨2, ⟨0, 1, 1, false, 0, 0⟩⟩,
        .client 2]
      (fun _ state => state.pending == 3)
      (by decide +kernel)
  have accounted := pending_is_accounted_for (by decide) reached
  exact ⟨observed, state, reached, by simpa using feature,
    accounted.1, accounted.2.2.2⟩

end ConcLogger.Async
