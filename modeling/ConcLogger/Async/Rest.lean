import ConcLogger.Async.Flush
import ConcLogger.Async.Termination
import ConcLogger.Async.Wakeups
import ConcLogger.Queue.Rest

namespace ConcLogger.Async

open Concurrency

/-!
# The logger at rest

When neither a client nor the worker can go on by itself, every call has
returned but for `flush()` calls that sleep on `drained_cv_`, and the worker
has either returned or sleeps on an empty deque with nothing pending.  If no
wakeup has been lost, no `flush()` call of a live logger is left behind
either.
-/

variable {Thread : Type}

/-! ## Past the stop -/

/-- The destructor has returned from `queue_.stop()`. -/
def Phase.Joining : Phase Thread → Prop
  | .destroyJoining | .destroySinks _ => True
  | _ => False

/-- The destructor joins the worker of a stopped queue only. -/
def JoinsStopped (state : State Thread) : Prop :=
  ∀ thread,
    (state.phase thread).Joining →
    state.core.shared.queue.stopped = true

section Joining

variable
  [DecidableEq Thread]
  {config : LoggerConfig}
  {state next : State Thread}
  {event : Event Thread}
  {emitted : List (Obs Thread)}

/-- Every step joins the worker of a stopped queue only. -/
theorem JoinsStopped.step
    (joins : JoinsStopped state)
    (seen : Queue.StopsSeen state.core.shared)
    (step : Step config state event emitted next) :
    JoinsStopped next := by
  intro thread joining
  apply step.stopped_mono
  by_cases already : (state.phase thread).Joining
  · exact joins thread already
  · cases step with
    | client mover emitted next step =>
        by_cases other : thread = mover
        · subst other
          cases step with
          | stopped core inner phase returning =>
              exact seen (.client thread) (by rw [returning]; trivial)
          | pushed item undelivered core inner phase =>
              simp only [State.phase_moveTo, Function.update_self]
                at joining
              split at joining <;> exact joining.elim
          | settle item undelivered phase =>
              simp only [State.phase_moveTo, Function.update_self]
                at joining
              split at joining <;> exact joining.elim
          | join broke phase | destroySink position phase =>
              exact (already (by rw [phase]; trivial)).elim
          | _ =>
              simp [Phase.Joining] at joining
        · cases step <;>
            simp [other, already] at joining
    | log mover level message withThreadDump environment phase idle
        admitted =>
        by_cases other : thread = mover
        · subst other
          rcases admitted with ⟨_, rfl⟩ | ⟨entry, _, rfl⟩ <;>
            simp [Phase.Joining] at joining
        · simp [other, already] at joining
    | flush mover | destroy mover =>
        by_cases other : thread = mover
        · subst other
          simp [Phase.Joining] at joining
        · simp [other, already] at joining
    | worker event emitted next isWorker step =>
        rw [step.clients_eq.1] at joining
        exact (already joining).elim
    | inner | wake =>
        exact (already joining).elim

/-- In every reachable state the destructor joins after the stop. -/
theorem JoinsStopped.of_reaches
    {allowed : State Thread → Event Thread → Prop}
    {observed : List (Obs Thread)}
    (reached :
      (machine Thread config).ReachesBy allowed observed state) :
    JoinsStopped state :=
  reached.invariant
    (fun _ state => JoinsStopped state)
    (by
      intro thread joining
      exact joining.elim)
    (fun before joins _ taken =>
      joins.step (.of_reaches (reaches_queue before))
        (Step.of_step? taken))

end Joining

/-! ## Nobody can go on -/

/-- Neither a client nor the worker can take a step by itself. -/
def AtRest
    [DecidableEq Thread]
    (config : LoggerConfig)
    (state : State Thread) : Prop :=
  ∀ party, ¬ Enabled (machine Thread config) Event.party? party state

section AtRest

variable
  [DecidableEq Thread]
  {config : LoggerConfig}
  {state : State Thread}
  {allowed : State Thread → Event Thread → Prop}
  {observed : List (Obs Thread)}

/-- At rest no event of a party is possible. -/
theorem AtRest.step?_eq_none
    (rest : AtRest config state)
    (event : Event Thread)
    {party : DrainLoop.Party Thread}
    (owner : event.party? = some party) :
    state.step? config event = none := by
  rw [← Option.not_isSome_iff_eq_none]
  exact fun possible => rest party ⟨event, owner, possible⟩

/-- At rest no event of a party inside the queue is possible. -/
private theorem AtRest.shared_step?_eq_none
    (rest : AtRest config state)
    (event : Event Thread)
    {party : DrainLoop.Party Thread}
    {called : DrainLoop.Event Thread LogEntry}
    {inner : Queue.Event (DrainLoop.Party Thread) LogEntry}
    (owner : event.party? = some party)
    (isCore : event.core? = some called)
    (isInner : called.shared? = some inner) :
    state.core.shared.step? inner = none := by
  have impossible := rest.step?_eq_none event owner
  cases event <;> cases isCore <;> cases isInner <;>
    simpa [State.step?, State.within, DrainLoop.State.step?,
      DrainLoop.Event.shared?, DrainLoop.State.within] using impossible

/-- At rest `mutex_` is free. -/
private theorem AtRest.unlocked
    (rest : AtRest config state)
    (holder : Queue.HolderBlocks state.core.shared) :
    state.core.shared.mutex = none :=
  holder.free_of_stuck fun party =>
    rest.shared_step?_eq_none (.advance party) rfl rfl rfl

/-- At rest the worker has finished or sleeps. -/
private theorem AtRest.worker_cases
    (rest : AtRest config state)
    (reached :
      (machine Thread config).ReachesBy allowed observed state) :
    state.Finished ∨ .worker ∈ state.core.shared.notEmpty.waiters := by
  by_contra neither
  rw [not_or] at neither
  exact rest .worker
    (enabled_of_helps (.of_reaches reached)
      (.of_reaches (reaches_core reached))
      (rest.unlocked (.of_reaches (reaches_queue reached)))
      neither.1 neither.2)

/-- At rest the clients have no next step. -/
private theorem AtRest.client?_eq_none
    (rest : AtRest config state)
    (thread : Thread) :
    state.client? config thread = none :=
  rest.step?_eq_none (.client thread) rfl

/-- At rest nobody is about to return from a member function of the queue. -/
private theorem AtRest.ret?_eq_none
    (rest : AtRest config state)
    (reached :
      (machine Thread config).ReachesBy allowed observed state)
    (party : DrainLoop.Party Thread) :
    state.core.shared.ret? party = none := by
  have linked := Linked.of_reaches reached
  have coreLinked := DrainLoop.Linked.of_reaches (reaches_core reached)
  cases party with
  | worker =>
      rcases rest.worker_cases reached with ⟨broke, control⟩ | asleep
      · have outside := coreLinked.worker
        rw [control] at outside
        have idle := Queue.Phase.eq_idle_of_member? outside
        simp [Queue.State.ret?, idle]
      · obtain ⟨out, waiting⟩ :=
          (Queue.Sound.of_reaches (reaches_queue reached)
            .worker).asleepNotEmpty asleep
        simp [Queue.State.ret?, waiting]
  | client thread =>
      have member := linked.clients thread
      have outside := coreLinked.clients thread
      have silent := rest.client?_eq_none thread
      cases inside : state.core.shared.phase (.client thread) with
      | pushReturning item undelivered =>
          cases phase : state.phase thread <;>
            simp [inside, phase, Queue.Phase.member?, Phase.member?]
              at member
          simp [State.client?, phase, inside, State.within,
            DrainLoop.State.step?, DrainLoop.Event.shared?,
            DrainLoop.State.within, Queue.State.step?,
            Queue.State.ret?] at silent
      | stopReturning =>
          cases phase : state.phase thread <;>
            simp [inside, phase, Queue.Phase.member?, Phase.member?]
              at member
          simp [State.client?, phase, inside, State.within,
            DrainLoop.State.step?, DrainLoop.Event.shared?,
            DrainLoop.State.within, Queue.State.step?,
            Queue.State.ret?] at silent
      | drainReturning | emptyReturning =>
          simp [inside, Queue.Phase.member?] at outside
      | _ =>
          simp [Queue.State.ret?, inside]

/-- At rest the queue rests. -/
private theorem AtRest.queue
    (rest : AtRest config state)
    (positive : 0 < config.policy.queueCapacity)
    (reached :
      (machine Thread config).ReachesBy allowed observed state) :
    Queue.Resting state.core.shared :=
  .of_stuck positive (reaches_queue reached) fun party =>
    ⟨rest.shared_step?_eq_none (.advance party) rfl rfl rfl,
      fun chosen =>
        rest.shared_step?_eq_none (.notifyOne party chosen) rfl rfl rfl,
      rest.ret?_eq_none reached party⟩

/-! ## The clients at rest -/

/-- At rest no producer sleeps: the worker would have made room. -/
private theorem AtRest.no_producer
    (rest : AtRest config state)
    (positive : 0 < config.policy.queueCapacity)
    (reached :
      (machine Thread config).ReachesBy allowed observed state) :
    state.core.shared.notFull.waiters = ∅ := by
  have resting := rest.queue positive reached
  by_contra somebody
  obtain ⟨full, running⟩ :=
    resting.producers (Finset.nonempty_iff_ne_empty.mpr somebody)
  rcases rest.worker_cases reached with ⟨broke, control⟩ | asleep
  · have stopped :=
      DrainLoop.SecondStopped.of_reaches (reaches_core reached)
        (by rw [control]; trivial)
    rw [running] at stopped
    cases stopped
  · obtain ⟨nothing, _⟩ := resting.consumers ⟨.worker, asleep⟩
    rw [nothing, Queue.capacity_of_reaches (reaches_queue reached)] at full
    exact Nat.not_le_of_lt positive full

/-- At rest no client is inside the queue. -/
private theorem AtRest.client_idle
    (rest : AtRest config state)
    (positive : 0 < config.policy.queueCapacity)
    (reached :
      (machine Thread config).ReachesBy allowed observed state)
    (thread : Thread) :
    state.core.shared.phase (.client thread) = .idle := by
  rcases (rest.queue positive reached).threads (.client thread) with
    idle | ⟨_, _, asleep⟩ | ⟨_, waiting, _⟩
  · exact idle
  · rw [rest.no_producer positive reached] at asleep
    exact (Finset.notMem_empty _ asleep).elim
  · have outside :=
      (DrainLoop.Linked.of_reaches (reaches_core reached)).clients thread
    rw [waiting] at outside
    exact (outside.1 rfl).elim

/-- At rest `drained_mutex_` is free: its holder could fall asleep. -/
private theorem AtRest.drained_unlocked
    (rest : AtRest config state)
    (reached :
      (machine Thread config).ReachesBy allowed observed state) :
    state.drainedMutex = none := by
  cases mutex : state.drainedMutex with
  | none =>
      rfl
  | some thread =>
      have blocking := (MutexHeld.of_reaches reached thread).mpr mutex
      have silent := rest.client?_eq_none thread
      simp [State.client?, blocking] at silent

/-- At rest a client is outside the logger or sleeps inside `flush`. -/
private theorem AtRest.client_cases
    (rest : AtRest config state)
    (positive : 0 < config.policy.queueCapacity)
    (reached :
      (machine Thread config).ReachesBy allowed observed state)
    (thread : Thread) :
    state.phase thread = .idle ∨
      (state.phase thread = .flushWaiting ∧
        thread ∈ state.drainedCv.waiters) := by
  have silent := rest.client?_eq_none thread
  have idle := rest.client_idle positive reached thread
  have member := (Linked.of_reaches reached).clients thread
  have unlocked := rest.drained_unlocked reached
  cases phase : state.phase thread with
  | idle =>
      exact Or.inl rfl
  | flushWaiting =>
      refine Or.inr ⟨rfl, ?_⟩
      by_contra awake
      by_cases zero : state.pending = 0 <;>
        simp [State.client?, phase, awake, State.awaitDrained, unlocked,
          zero] at silent
  | flushLocking =>
      by_cases zero : state.pending = 0 <;>
        simp [State.client?, phase, State.awaitDrained, unlocked, zero]
          at silent
  | logPushing | destroyStopping =>
      simp [phase, idle, Queue.Phase.member?, Phase.member?] at member
  | logCounting | destroyStop =>
      simp [State.client?, phase, State.within, DrainLoop.State.step?,
        DrainLoop.Event.shared?, DrainLoop.State.within,
        Queue.State.step?, idle] at silent
  | destroyJoining =>
      have stopped :=
        JoinsStopped.of_reaches reached thread (by rw [phase]; trivial)
      rcases rest.worker_cases reached with ⟨broke, control⟩ | asleep
      · simp [State.client?, phase, control] at silent
      · have running :=
          ((rest.queue positive reached).consumers
            ⟨.worker, asleep⟩).2
        rw [stopped] at running
        cases running
  | flushSinks position | destroySinks position =>
      by_cases more : position < config.sinkCount <;>
        simp [State.client?, phase, more] at silent
  | logSettling | logNotifying | logReturning | flushBlocking =>
      simp [State.client?, phase] at silent

/-! ## What rest looks like -/

/-- Whether a client is inside `drained_cv_.wait` can be seen from its phase. -/
instance decidableFlushWaiting
    (phase : Phase Thread) :
    Decidable (phase = .flushWaiting) :=
  decidable_of_iff (phase matches .flushWaiting)
    (by cases phase <;> simp)

/-- How a logger stands in which nobody can go on. -/
structure Resting (state : State Thread) : Prop where
  /-- Every call has returned but for sleepers inside `flush`. -/
  clients :
    ∀ thread,
      state.phase thread = .idle ∨
        (state.phase thread = .flushWaiting ∧
          thread ∈ state.drainedCv.waiters)
  /-- Nobody holds `mutex_` of the queue or `drained_mutex_`. -/
  unlocked :
    state.core.shared.mutex = none ∧ state.drainedMutex = none
  /-- `drain_loop` has returned or waits for an entry, with nothing left. -/
  worker :
    state.Finished ∨
      (.worker ∈ state.core.shared.notEmpty.waiters ∧
        state.core.shared.queue.stopped = false ∧
        state.core.shared.queue.data = [] ∧
        state.unsettled = [] ∧
        state.pending = 0)

/-- A worker that sleeps has no entry in its hands. -/
private theorem unsettled_of_asleep
    (reached :
      (machine Thread config).ReachesBy allowed observed state)
    (asleep : .worker ∈ state.core.shared.notEmpty.waiters) :
    state.stage = .ready ∧
      state.current? = none ∧
      state.unsettled = [] := by
  have coreLinked := DrainLoop.Linked.of_reaches (reaches_core reached)
  obtain ⟨out, waiting⟩ :=
    (Queue.Sound.of_reaches (reaches_queue reached)
      .worker).asleepNotEmpty asleep
  obtain ⟨second, control⟩ :=
    coreLinked.control_of_drain (by rw [waiting]; rfl)
  have nothing : state.current? = none := by
    simp [State.current?, control]
  have ready := (Linked.of_reaches reached).ready_of_no_current nothing
  refine ⟨ready, nothing, ?_⟩
  simp [State.unsettled, ready, DrainLoop.State.outstanding, control,
    waiting, DrainLoop.handedBy]

omit [DecidableEq Thread] in
/-- When all clients are outside `log`, nothing is in flight and nothing is owed. -/
private theorem nothing_counted
    [Fintype Thread]
    (idle :
      ∀ thread, state.core.shared.phase (.client thread) = .idle)
    (clients :
      ∀ thread,
        state.phase thread = .idle ∨
          (state.phase thread = .flushWaiting ∧
            thread ∈ state.drainedCv.waiters)) :
    headcount state.inFlight = 0 ∧ headcount state.owing = 0 := by
  constructor <;>
    · rw [headcount, Finset.card_eq_zero, Finset.filter_eq_empty_iff]
      intro thread _
      rcases clients thread with phase | ⟨phase, _⟩ <;>
        simp [State.inFlight, State.owing, idle thread, phase,
          Queue.Phase.undecided?]

/-- What is at rest rests. -/
theorem AtRest.resting
    [Fintype Thread]
    (rest : AtRest config state)
    (positive : 0 < config.policy.queueCapacity)
    (reached :
      (machine Thread config).ReachesBy allowed observed state) :
    Resting state where
  clients := rest.client_cases positive reached
  unlocked :=
    ⟨rest.unlocked (.of_reaches (reaches_queue reached)),
      rest.drained_unlocked reached⟩
  worker := by
    refine (rest.worker_cases reached).imp_right fun asleep => ?_
    obtain ⟨nothing, running⟩ :=
      (rest.queue positive reached).consumers ⟨.worker, asleep⟩
    obtain ⟨_, _, settled⟩ := unsettled_of_asleep reached asleep
    obtain ⟨noneInFlight, noneOwing⟩ :=
      nothing_counted (rest.client_idle positive reached)
        (rest.client_cases positive reached)
    refine ⟨asleep, running, nothing, settled, ?_⟩
    rw [pending_eq_headcount positive reached, nothing, settled,
      noneInFlight, noneOwing]
    rfl

/-- While the logger rests, a party is outside the queue or asleep in `drain`. -/
private theorem Resting.party_cases
    (resting : Resting state)
    (reached :
      (machine Thread config).ReachesBy allowed observed state)
    (party : DrainLoop.Party Thread) :
    state.core.shared.phase party = .idle ∨
      ∃ out,
        state.core.shared.phase party = .drainWaiting out ∧
          party ∈ state.core.shared.notEmpty.waiters := by
  cases party with
  | worker =>
      rcases resting.worker with ⟨broke, control⟩ | ⟨asleep, _⟩
      · left
        apply Queue.Phase.eq_idle_of_member?
        rw [(DrainLoop.Linked.of_reaches (reaches_core reached)).worker,
          control]
        rfl
      · right
        obtain ⟨out, waiting⟩ :=
          (Queue.Sound.of_reaches (reaches_queue reached)
            .worker).asleepNotEmpty asleep
        exact ⟨out, waiting, asleep⟩
  | client thread =>
      left
      apply Queue.Phase.eq_idle_of_member?
      rw [(Linked.of_reaches reached).clients thread]
      rcases resting.clients thread with phase | ⟨phase, _⟩ <;>
        rw [phase] <;>
        rfl

/-- While the logger rests, the worker has no step of its own. -/
private theorem Resting.no_worker_step
    (resting : Resting state)
    (reached :
      (machine Thread config).ReachesBy allowed observed state) :
    state.stage = .ready ∧
      state.current? = none ∧
      state.core.step? .worker = none := by
  rcases resting.worker with ⟨broke, control⟩ | ⟨asleep, _⟩
  · have nothing : state.current? = none := by
      simp [State.current?, control]
    refine ⟨(Linked.of_reaches reached).ready_of_no_current nothing,
      nothing, ?_⟩
    simp [DrainLoop.State.step?, DrainLoop.Event.shared?,
      DrainLoop.State.worker?, control]
  · obtain ⟨ready, nothing, _⟩ := unsettled_of_asleep reached asleep
    obtain ⟨out, waiting⟩ :=
      (Queue.Sound.of_reaches (reaches_queue reached)
        .worker).asleepNotEmpty asleep
    obtain ⟨second, control⟩ :=
      (DrainLoop.Linked.of_reaches
        (reaches_core reached)).control_of_drain (by rw [waiting]; rfl)
    refine ⟨ready, nothing, ?_⟩
    simp [DrainLoop.State.step?, DrainLoop.Event.shared?,
      DrainLoop.State.worker?, control, waiting]

/-- What rests is at rest. -/
theorem Resting.atRest
    (resting : Resting state)
    (reached :
      (machine Thread config).ReachesBy allowed observed state) :
    AtRest config state := by
  rintro party ⟨event, owner, possible⟩
  obtain ⟨⟨next, emitted⟩, taken⟩ := Option.isSome_iff_exists.mp possible
  obtain ⟨ready, nothing, noStep⟩ := resting.no_worker_step reached
  cases Step.of_step? taken with
  | log | flush | destroy | wake =>
      cases owner
  | client thread emitted next step =>
      rcases resting.clients thread with idle | ⟨waiting, asleep⟩
      · cases step with
        | flushPass awaiting | flushBlock awaiting =>
            rcases awaiting with phase | ⟨phase, _⟩ <;>
              simp [idle] at phase
        | _ =>
            simp_all
      · cases step with
        | flushPass awaiting | flushBlock awaiting =>
            rcases awaiting with phase | ⟨_, awake⟩
            · simp [waiting] at phase
            · exact awake asleep
        | _ =>
            simp_all
  | worker event emitted next isWorker step =>
      cases step with
      | move core seen stage isNothing moved =>
          rw [noStep] at moved
          cases moved
      | _ =>
          simp_all
  | inner event called core seen isCore moved =>
      cases event with
      | advance mover =>
          cases isCore
          have inside := (DrainLoop.State.step?_of_shared? rfl moved).1
          rcases resting.party_cases reached mover with
            idle | ⟨out, waiting, asleep⟩
          · simp [Queue.State.step?, Queue.State.advance?, idle] at inside
          · simp [Queue.State.step?, Queue.State.advance?, waiting,
              asleep] at inside
      | notifyOne mover chosen =>
          cases isCore
          have inside := (DrainLoop.State.step?_of_shared? rfl moved).1
          rcases resting.party_cases reached mover with
            idle | ⟨out, waiting, _⟩
          · simp [Queue.State.step?, Queue.State.notifyOne?, idle]
              at inside
          · simp [Queue.State.step?, Queue.State.notifyOne?, waiting]
              at inside
      | wakeQueue =>
          cases owner
      | _ =>
          cases isCore

/--
A logger of positive capacity does not deadlock: nobody can go on exactly when
every call has returned, but for `flush()` calls asleep on `drained_cv_`, both
mutexes are free, and `drain_loop` has returned or sleeps in a queue that is
not stopped, with nothing queued, unsettled or pending.
-/
theorem stuck_iff_waits_for_calls
    [Fintype Thread]
    (positive : 0 < config.policy.queueCapacity)
    (reached : (machine Thread config).Reaches observed state) :
    AtRest config state ↔ Resting state :=
  ⟨fun rest => rest.resting positive reached,
    fun resting => resting.atRest reached⟩

/--
After a lost wakeup the logger rests with a flusher asleep and nothing
pending: only a spurious wakeup or another call can wake that flusher.
-/
theorem stuck_iff_waits_for_calls_of_lost_wakeup :
    ∃ (observed : List (Obs (Fin 2))) (state : State (Fin 2)),
      (machine (Fin 2) narrow).Reaches observed state ∧
        1 ∈ state.drainedCv.waiters ∧
        state.pending = 0 ∧
        AtRest narrow state := by
  obtain ⟨observed, state, reached, feature⟩ :=
    (machine (Fin 2) narrow).exists_reaches
      [.log 0 .warn "lost" false ⟨0, ⟨0, 1, 1, false, 0, 0⟩⟩,
        .client 0, .advance (.client 0),
        .notifyOne (.client 0) .worker, .client 0, .client 0,
        .worker, .advance .worker, .advance .worker, .worker,
        .worker, .write 0, .worker,
        .flush 1, .client 1,
        .worker, .worker, .client 1,
        .worker, .worker, .advance .worker, .advance .worker]
      (fun _ state =>
        decide (1 ∈ state.drainedCv.waiters) &&
          decide
            (∀ thread,
              state.phase thread = .idle ∨
                (state.phase thread = .flushWaiting ∧
                  thread ∈ state.drainedCv.waiters)) &&
          state.core.shared.mutex.isNone &&
          state.drainedMutex.isNone &&
          decide (.worker ∈ state.core.shared.notEmpty.waiters) &&
          !state.core.shared.queue.stopped &&
          state.core.shared.queue.data.isEmpty &&
          state.unsettled.isEmpty &&
          state.pending == 0)
      (by decide +kernel)
  simp only [Bool.and_eq_true, decide_eq_true_eq, beq_iff_eq,
    Option.isNone_iff_eq_none, Bool.not_eq_true', List.isEmpty_iff]
    at feature
  obtain ⟨⟨⟨⟨⟨⟨⟨⟨flusher, clients⟩, free⟩, drainedFree⟩, asleep⟩, running⟩,
    nothing⟩, settled⟩, zero⟩ := feature
  exact ⟨observed, state, reached, flusher, zero,
    (stuck_iff_waits_for_calls (by decide) reached).mpr
      ⟨clients, ⟨free, drainedFree⟩,
        Or.inr ⟨asleep, running, nothing, settled, zero⟩⟩⟩

/-- The last owed notification does not fall into the gap, and nobody destroys the logger. -/
def KeptAlive (state : State Thread) (event : Event Thread) : Prop :=
  KeepsWakeups state event ∧ Alive state event

instance decidableKeptAlive
    [Fintype Thread]
    (state : State Thread)
    (event : Event Thread) :
    Decidable (KeptAlive state event) :=
  inferInstanceAs (Decidable (_ ∧ _))

/-- A live logger whose wakeups are kept rests without sleepers in `flush`. -/
theorem Resting.idle_of_kept
    (resting : Resting state)
    (reached :
      (machine Thread config).ReachesBy KeptAlive observed state) :
    (∀ thread, state.phase thread = .idle) ∧
      .worker ∈ state.core.shared.notEmpty.waiters ∧
      state.pending = 0 := by
  have kept :
      (machine Thread config).ReachesBy KeepsWakeups observed state :=
    reached.mono fun permitted => permitted.1
  have alive : (machine Thread config).ReachesBy Alive observed state :=
    reached.mono fun permitted => permitted.2
  have unfinished : ¬ state.Finished := by
    rintro ⟨broke, control⟩
    have stopped :=
      DrainLoop.SecondStopped.of_reaches (reaches_core reached)
        (by rw [control]; trivial)
    exact not_stopped alive stopped
  obtain ⟨asleep, running, nothing, settled, zero⟩ :=
    resting.worker.resolve_left unfinished
  refine ⟨?_, asleep, zero⟩
  intro thread
  rcases resting.clients thread with idle | ⟨waiting, sleeping⟩
  · exact idle
  · have inRoom : thread ∈ state.waitingRoom.waiters := by
      simpa [State.waitingRoom, resting.unlocked.2] using sleeping
    rcases RoomCovered.of_reaches kept thread inRoom zero with
      notifying | ⟨other, owes⟩
    · obtain ⟨ready, _, _⟩ := unsettled_of_asleep reached asleep
      rw [ready] at notifying
      cases notifying
    · rcases resting.clients other with phase | ⟨phase, _⟩ <;>
        simp [phase, Phase.owesNotify] at owes

/--
As long as nobody destroys a logger of positive capacity and no wakeup is lost,
it gets stuck only when every call has returned, `flush()` included.  Every
entry whose `log()` call has returned has then been written on all sinks, or
the overflow policy has discarded it.
-/
theorem live_logger_rests_with_everything_written
    [Fintype Thread]
    (positive : 0 < config.policy.queueCapacity)
    (reached :
      (machine Thread config).ReachesBy KeptAlive observed state)
    (rest : AtRest config state) :
    (∀ thread, state.phase thread = .idle) ∧
      .worker ∈ state.core.shared.notEmpty.waiters ∧
      AllAccounted config observed observed := by
  obtain ⟨idle, asleep, zero⟩ :=
    (rest.resting positive reached).idle_of_kept reached
  exact ⟨idle, asleep,
    allAccounted_of_pending_zero positive
      (reached.mono fun permitted => permitted.2) zero⟩

/-- One call is served, a flusher that fell asleep early is woken, and all is quiet. -/
theorem live_logger_rests_with_everything_written_of_one_call :
    ∃ (observed : List (Obs (Fin 2))) (state : State (Fin 2)),
      (machine (Fin 2) narrow).ReachesBy KeptAlive observed state ∧
        .flushReturned 1 ∈ observed ∧
        (∀ thread, state.phase thread = .idle) ∧
        AllAccounted narrow observed observed := by
  obtain ⟨observed, state, reached, feature⟩ :=
    (machine (Fin 2) narrow).exists_reachesBy KeptAlive
      [.log 0 .warn "kept" false ⟨0, ⟨0, 1, 1, false, 0, 0⟩⟩,
        .client 0, .advance (.client 0),
        .notifyOne (.client 0) .worker, .client 0, .client 0,
        .flush 1, .client 1, .client 1,
        .worker, .advance .worker, .advance .worker, .worker,
        .worker, .write 0, .worker, .worker, .worker,
        .client 1, .client 1, .client 1,
        .worker, .worker, .advance .worker, .advance .worker]
      (fun observed state =>
        decide (.flushReturned 1 ∈ observed) &&
          decide (∀ thread, state.phase thread = .idle) &&
          state.core.shared.mutex.isNone &&
          state.drainedMutex.isNone &&
          decide (.worker ∈ state.core.shared.notEmpty.waiters) &&
          !state.core.shared.queue.stopped &&
          state.core.shared.queue.data.isEmpty &&
          state.unsettled.isEmpty &&
          state.pending == 0)
      (by decide +kernel)
  simp only [Bool.and_eq_true, decide_eq_true_eq, beq_iff_eq,
    Option.isNone_iff_eq_none, Bool.not_eq_true', List.isEmpty_iff]
    at feature
  obtain ⟨⟨⟨⟨⟨⟨⟨⟨flushed, idle⟩, free⟩, drainedFree⟩, asleep⟩, running⟩,
    nothing⟩, settled⟩, zero⟩ := feature
  have resting : Resting state :=
    ⟨fun thread => Or.inl (idle thread), ⟨free, drainedFree⟩,
      Or.inr ⟨asleep, running, nothing, settled, zero⟩⟩
  obtain ⟨quiet, _, written⟩ :=
    live_logger_rests_with_everything_written (by decide) reached
      (resting.atRest reached)
  exact ⟨observed, state, reached, flushed, quiet, written⟩

end AtRest

end ConcLogger.Async
