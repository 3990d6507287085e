import ConcLogger.Async.Pending

namespace ConcLogger.Async

open Concurrency

/-!
# Sleeping workers and sleeping flushers

The worker sleeps inside the queue, where no wakeup is lost.  A `flush()`
caller sleeps on `drained_cv_`, whose notifications are sent without
`drained_mutex_`: one that falls between a false predicate and the sleep
reaches nobody.  Runs in which the last owed notification never falls into
that gap keep every sleeping flusher covered.
-/

variable {Thread : Type}

/-! ## The worker -/

/--
Eliding the notification of a non-empty deque is safe: nobody sleeps on a
non-empty or stopped queue without a wakeup on its way, and in a logger that
wakeup is one that a client still owes.
-/
theorem elided_wakeups_are_safe
    [DecidableEq Thread] :
    (∀ {T : Type} {capacity : Nat}
      {observed : List (Queue.Obs Thread T)}
      {state : Queue.State Thread T},
      0 < capacity →
      (Queue.machine Thread T capacity).ReachesBy
        Queue.EmptyOut observed state →
      ∀ drainer ∈ state.notEmpty.waiters,
        (state.queue.data ≠ [] →
          (∃ thread, (state.phase thread).OwesNotEmpty) ∨
            ∃ woken out,
              state.phase woken = .drainWaiting out ∧
                woken ∉ state.notEmpty.waiters) ∧
          (state.queue.stopped = true →
            ∃ thread, state.phase thread = .stopNotifyingEmpty)) ∧
      ∀ {config : LoggerConfig}
        {observed : List (Obs Thread)}
        {state : State Thread},
        0 < config.policy.queueCapacity →
        (machine Thread config).Reaches observed state →
        .worker ∈ state.core.shared.notEmpty.waiters →
        state.core.shared.queue.data ≠ [] ∨
          state.core.shared.queue.stopped = true →
        ∃ thread,
          (state.core.shared.phase (.client thread)).OwesNotEmpty := by
  refine ⟨?_, ?_⟩
  · intro T capacity observed state _ reached drainer asleep
    exact ⟨Queue.NotEmptyCovered.of_reaches reached drainer asleep,
      Queue.StopCovered.of_reaches reached drainer asleep⟩
  · intro config observed state _ reached asleep ready
    have inQueue := reaches_queue reached
    have coreLinked :=
      DrainLoop.Linked.of_reaches (reaches_core reached)
    have promised :
        ∃ party, (state.core.shared.phase party).OwesNotEmpty := by
      rcases ready with something | stopped
      · rcases Queue.NotEmptyCovered.of_reaches inQueue
            .worker asleep something with
          owes | ⟨woken, out, waiting, awake⟩
        · exact owes
        · -- Only the worker drains, and it is asleep.
          have isWorker :=
            coreLinked.eq_worker_of_draining
              (Or.inr ⟨waiting, awake⟩)
          rw [isWorker] at awake
          exact (awake asleep).elim
      · obtain ⟨party, owes⟩ :=
          Queue.StopCovered.of_reaches inQueue
            .worker asleep stopped
        exact ⟨party, by simp [owes, Queue.Phase.OwesNotEmpty]⟩
    obtain ⟨party, owes⟩ := promised
    cases party with
    | client thread =>
        exact ⟨thread, owes⟩
    | worker =>
        have waiting :=
          (Queue.Sound.of_reaches inQueue .worker).asleepNotEmpty asleep
        obtain ⟨out, phase⟩ := waiting
        rw [phase] at owes
        exact owes.elim

/--
A worker asleep on a non-empty queue of a logger, and a consumer asleep on a
non-empty queue: in both the producer still owes the notification.
-/
theorem elided_wakeups_are_safe_for_sleeping_consumers :
    (∃ (observed : List (Queue.Obs (Fin 2) Nat))
      (state : Queue.State (Fin 2) Nat),
      (Queue.machine (Fin 2) Nat 1).ReachesBy
          Queue.EmptyOut observed state ∧
        1 ∈ state.notEmpty.waiters ∧
        ((∃ thread, (state.phase thread).OwesNotEmpty) ∨
          ∃ woken out,
            state.phase woken = .drainWaiting out ∧
              woken ∉ state.notEmpty.waiters)) ∧
      ∃ (observed : List (Obs (Fin 2)))
        (state : State (Fin 2)),
        (machine (Fin 2) { module := "net", sinkCount := 1 }).Reaches
            observed state ∧
          .worker ∈ state.core.shared.notEmpty.waiters ∧
          ∃ thread,
            (state.core.shared.phase (.client thread)).OwesNotEmpty := by
  refine ⟨?_, ?_⟩
  · obtain ⟨observed, state, reached, feature⟩ :=
      (Queue.machine (Fin 2) Nat 1).exists_reachesBy Queue.EmptyOut
        [.call 1 (.drain []), .advance 1, .advance 1,
          .call 0 (.push 5 .block), .advance 0]
        (fun _ state =>
          decide (1 ∈ state.notEmpty.waiters) &&
            !state.queue.data.isEmpty)
        (by decide +kernel)
    simp only [Bool.and_eq_true, decide_eq_true_eq,
      Bool.not_eq_true', List.isEmpty_eq_false_iff] at feature
    exact ⟨observed, state, reached, feature.1,
      (elided_wakeups_are_safe.1 (by decide) reached
        1 feature.1).1 feature.2⟩
  · obtain ⟨observed, state, reached, feature⟩ :=
      (machine (Fin 2)
          { module := "net", sinkCount := 1 }).exists_reaches
        [.worker, .advance .worker, .advance .worker,
          .log 0 .warn "kept" false ⟨0, ⟨0, 1, 1, false, 0, 0⟩⟩,
          .client 0, .advance (.client 0)]
        (fun _ state =>
          decide (.worker ∈ state.core.shared.notEmpty.waiters) &&
            !state.core.shared.queue.data.isEmpty)
        (by decide +kernel)
    simp only [Bool.and_eq_true, decide_eq_true_eq,
      Bool.not_eq_true', List.isEmpty_eq_false_iff] at feature
    exact ⟨observed, state, reached, feature.1,
      elided_wakeups_are_safe.2 (by decide) reached
        feature.1 (Or.inl feature.2)⟩

/-! ## The flushers -/

/-- The client still has to notify `drained_cv_`. -/
def Phase.owesNotify : Phase Thread → Bool
  | .logNotifying _ => true
  | _ => false

/-- Some thread still has to notify `drained_cv_`. -/
def NotifyPromised (state : State Thread) : Prop :=
  state.stage = .notifying ∨
    ∃ thread, (state.phase thread).owesNotify = true

/-- Sleepers on `drained_cv_` are covered while nothing is pending. -/
def FlushersCovered (state : State Thread) : Prop :=
  state.drainedCv.Covered (state.pending = 0) (NotifyPromised state)

/-- Nothing is pending and a flusher has not fallen asleep yet. -/
def State.Gap (state : State Thread) : Prop :=
  state.pending = 0 ∧ state.drainedMutex ≠ none

/-- The event is the last owed notification, and it falls into the gap. -/
def State.LosesWakeup (state : State Thread) : Event Thread → Prop
  | .worker =>
      state.stage = .notifying ∧ state.Gap ∧
        ∀ thread, (state.phase thread).owesNotify = false
  | .client thread =>
      (state.phase thread).owesNotify = true ∧ state.Gap ∧
        state.stage ≠ .notifying ∧
        ∀ other,
          other ≠ thread →
          (state.phase other).owesNotify = false
  | _ => False

/-- The last owed notification does not fall into the gap. -/
def KeepsWakeups (state : State Thread) (event : Event Thread) : Prop :=
  ¬ state.LosesWakeup event

instance decidableGap (state : State Thread) : Decidable state.Gap :=
  decidable_of_iff
    (state.pending = 0 ∧ state.drainedMutex.isSome = true)
    (by simp [State.Gap, Option.ne_none_iff_isSome])

instance decidableLosesWakeup
    [Fintype Thread]
    [DecidableEq Thread]
    (state : State Thread) :
    ∀ event, Decidable (state.LosesWakeup event)
  | .worker | .client _ =>
      inferInstanceAs (Decidable (_ ∧ _))
  | .log _ _ _ _ _ | .flush _ | .destroy _ | .write _ | .advance _
  | .notifyOne _ _ | .wakeQueue _ | .wake _ =>
      .isFalse id

instance decidableKeepsWakeups
    [Fintype Thread]
    [DecidableEq Thread]
    (state : State Thread)
    (event : Event Thread) :
    Decidable (KeepsWakeups state event) :=
  inferInstanceAs (Decidable (¬ state.LosesWakeup event))

/-- A thread holds `drained_mutex_` exactly between its predicate and its sleep. -/
def MutexHeld (state : State Thread) : Prop :=
  ∀ thread,
    state.phase thread = .flushBlocking ↔
      state.drainedMutex = some thread

section Steps

variable
  [DecidableEq Thread]
  {config : LoggerConfig}
  {state next : State Thread}
  {event : Event Thread}
  {emitted : List (Obs Thread)}

namespace MutexHeld

/-- A client that is and stays outside the gap leaves the mutex alone. -/
private theorem move
    (held : MutexHeld state)
    {thread : Thread}
    {phase : Phase Thread}
    (before : state.phase thread ≠ .flushBlocking)
    (after : phase ≠ .flushBlocking)
    (moved : next.phase = Function.update state.phase thread phase)
    (mutex : next.drainedMutex = state.drainedMutex) :
    MutexHeld next := by
  intro other
  rw [moved, mutex]
  by_cases same : other = thread
  · subst same
    have notHolder : state.drainedMutex ≠ some other :=
      fun holds => before ((held other).mpr holds)
    simp [after, notHolder]
  · rw [Function.update_of_ne same]
    exact held other

/-- Every step keeps the mutex with the thread in the gap. -/
theorem step
    (held : MutexHeld state)
    (step : Step config state event emitted next) :
    MutexHeld next := by
  cases step with
  | log thread level message withThreadDump environment phase idle
      admitted =>
      refine held.move (by simp [idle]) ?_ rfl rfl
      rcases admitted with ⟨_, rfl⟩ | ⟨entry, _, rfl⟩ <;> simp
  | flush thread idle | destroy thread idle =>
      exact held.move (by simp [idle]) (by simp) rfl rfl
  | client thread emitted next step =>
      cases step with
      | flushBlock awaiting free =>
          intro other
          by_cases same : other = thread
          · subst same
            simp
          · have notHolder : state.phase other ≠ .flushBlocking := by
              intro blocking
              have holds := (held other).mp blocking
              rw [free] at holds
              cases holds
            simp [same, notHolder, Ne.symm same]
      | flushSleep phase =>
          have holds := (held thread).mp phase
          intro other
          by_cases same : other = thread
          · subst same
            simp
          · have notHolder : state.phase other ≠ .flushBlocking := by
              intro blocking
              have alsoHolds := (held other).mp blocking
              rw [holds] at alsoHolds
              exact same (Option.some.inj alsoHolds).symm
            simp [same, notHolder]
      | pushed item undelivered core seen phase =>
          refine held.move (by simp [phase]) ?_ rfl rfl
          split <;> simp
      | settle item undelivered phase =>
          refine held.move (by simp [phase]) ?_ rfl rfl
          split <;> simp
      | flushPass awaiting =>
          refine held.move ?_ (by simp) rfl rfl
          rcases awaiting with phase | ⟨phase, _⟩ <;> simp [phase]
      | count entry core seen phase | notify item phase
      | logReturn logged phase | flushSink position phase
      | flushReturn position phase | stop core seen phase
      | stopped core seen phase | join broke phase
      | destroySink position phase | destroyReturn position phase =>
          exact held.move (by simp [phase]) (by simp) rfl rfl
  | worker event emitted next isWorker step =>
      cases step <;> exact held
  | inner | wake =>
      exact held

/-- In every reachable state the mutex is with the thread in the gap. -/
theorem of_reaches
    {allowed : State Thread → Event Thread → Prop}
    {observed : List (Obs Thread)}
    (reached :
      (machine Thread config).ReachesBy allowed observed state) :
    MutexHeld state :=
  reached.invariant
    (fun _ state => MutexHeld state)
    (by
      intro thread
      simp [machine, State.initial])
    (fun _ held _ taken => held.step (Step.of_step? taken))

end MutexHeld

/-- The sleepers on `drained_cv_` together with the flusher in the gap. -/
def State.waitingRoom (state : State Thread) : Condvar Thread :=
  match state.drainedMutex with
  | none => state.drainedCv
  | some holder => state.drainedCv.sleep holder

/-- Everybody who sleeps or is about to is covered while nothing is pending. -/
def RoomCovered (state : State Thread) : Prop :=
  state.waitingRoom.Covered (state.pending = 0) (NotifyPromised state)

namespace RoomCovered

/-- A client that owes no notification moves, and no sleeper joins. -/
private theorem move
    (covered : RoomCovered state)
    {thread : Thread}
    {phase : Phase Thread}
    (owesNothing : (state.phase thread).owesNotify = false)
    (room : next.waitingRoom = state.waitingRoom)
    (pending : next.pending = 0 → state.pending = 0)
    (stage : next.stage = state.stage)
    (moved : next.phase = Function.update state.phase thread phase) :
    RoomCovered next := by
  refine covered.frame (by rw [room]) pending ?_
  rintro (notifying | owed)
  · exact Or.inl (stage.trans notifying)
  · right
    rw [moved]
    refine exists_update
      (fun _ (phase : Phase Thread) => phase.owesNotify = true)
      owed ?_
    intro owes
    rw [owesNothing] at owes
    cases owes

/-- A notification that is not lost leaves the room covered. -/
private theorem notified
    (others :
      state.pending = 0 →
      state.drainedMutex ≠ none →
      NotifyPromised next)
    (condvar : next.drainedCv = state.drainedCv.notifyAll)
    (mutex : next.drainedMutex = state.drainedMutex)
    (pending : next.pending = state.pending) :
    RoomCovered next := by
  intro sleeper asleep zero
  rw [pending] at zero
  apply others zero
  intro free
  simp [State.waitingRoom, mutex, free, condvar] at asleep

/-- Every step of a client that is not lost keeps the room covered. -/
theorem clientStep
    {thread : Thread}
    (covered : RoomCovered state)
    (held : MutexHeld state)
    (settlesOne : SettlesOne state)
    (permitted : KeepsWakeups state (.client thread))
    (step : ClientStep config state thread emitted next) :
    RoomCovered next := by
  cases step with
  | count entry core seen phase =>
      exact covered.move (by simp [phase, Phase.owesNotify]) rfl
        (by simp) rfl rfl
  | settle item undelivered phase =>
      have one := settlesOne thread item undelivered phase
      by_cases last : state.pending = undelivered
      · -- The zero-reaching subtraction makes the promise.
        refine Condvar.Covered.of_promised (Or.inr ⟨thread, ?_⟩)
        simp [last, Phase.owesNotify]
      · refine Condvar.Covered.of_not_ready ?_
        rw [one] at last ⊢
        exact fetchSub_one_ne_zero last
  | notify item phase =>
      refine notified ?_ rfl rfl rfl
      intro zero holds
      by_contra nobody
      refine permitted
        ⟨by simp [phase, Phase.owesNotify], ⟨zero, holds⟩, ?_, ?_⟩
      · intro stage
        exact nobody (Or.inl stage)
      · intro other different
        by_contra owes
        refine nobody (Or.inr ⟨other, ?_⟩)
        simpa [different] using owes
  | flushPass awaiting free zero =>
      refine covered.move ?_ rfl id rfl rfl
      rcases awaiting with phase | ⟨phase, _⟩ <;>
        simp [phase, Phase.owesNotify]
  | flushBlock awaiting free positive =>
      exact Condvar.Covered.of_not_ready positive
  | flushSleep phase =>
      have holds := (held thread).mp phase
      refine covered.move (by simp [phase, Phase.owesNotify]) ?_
        id rfl rfl
      simp [State.waitingRoom, holds]
  | pushed item undelivered core seen phase
  | logReturn logged phase | flushSink position phase
  | flushReturn position phase | stop core seen phase
  | stopped core seen phase | join broke phase
  | destroySink position phase | destroyReturn position phase =>
      exact covered.move (by simp [phase, Phase.owesNotify]) rfl
        id rfl rfl

/-- Every step that is not lost keeps the room covered. -/
theorem step
    (covered : RoomCovered state)
    (held : MutexHeld state)
    (settlesOne : SettlesOne state)
    (permitted : KeepsWakeups state event)
    (step : Step config state event emitted next) :
    RoomCovered next := by
  cases step with
  | log thread level message withThreadDump environment phase idle =>
      exact covered.move (by simp [idle, Phase.owesNotify]) rfl
        id rfl rfl
  | flush thread idle | destroy thread idle =>
      exact covered.move (by simp [idle, Phase.owesNotify]) rfl
        id rfl rfl
  | client thread emitted next step =>
      exact covered.clientStep held settlesOne permitted step
  | worker event emitted next isWorker step =>
      cases step with
      | move =>
          exact covered
      | dispatch item stage | write position todo item stage
      | join stage =>
          refine covered.frame (Finset.Subset.refl _) id ?_
          intro promised
          exact Or.inr
            (promised.resolve_left (by simp [stage]))
      | settle core seen stage more =>
          exact Condvar.Covered.of_not_ready
            (fetchSub_one_ne_zero more)
      | settleLast =>
          exact Condvar.Covered.of_promised (Or.inl rfl)
      | notify core seen stage =>
          refine notified ?_ rfl rfl rfl
          intro zero holds
          right
          by_contra nobody
          rcases isWorker with rfl | ⟨position, todo, _, writing⟩
          · refine permitted ⟨stage, ⟨zero, holds⟩, ?_⟩
            intro thread
            by_contra owes
            exact nobody ⟨thread, by simpa using owes⟩
          · rw [stage] at writing
            cases writing
  | inner =>
      exact covered
  | wake thread =>
      refine covered.frame ?_ id id
      intro sleeper asleep
      unfold State.waitingRoom at asleep ⊢
      cases mutex : state.drainedMutex with
      | none =>
          rw [mutex] at asleep
          exact (Condvar.mem_waiters_rouse.mp asleep).2
      | some holder =>
          rw [mutex] at asleep
          simp only [Condvar.mem_waiters_sleep,
            Condvar.mem_waiters_rouse] at asleep ⊢
          exact asleep.imp_right fun both => both.2

end RoomCovered

end Steps

section Claim

variable
  [DecidableEq Thread]
  {config : LoggerConfig}
  {observed : List (Obs Thread)}
  {state : State Thread}

/-- Without lost wakeups sleepers and the flusher in the gap are covered. -/
theorem RoomCovered.of_reaches
    (reached :
      (machine Thread config).ReachesBy KeepsWakeups observed state) :
    RoomCovered state :=
  reached.invariant
    (fun _ state => RoomCovered state)
    (by
      intro sleeper asleep
      simp [machine, State.initial, State.waitingRoom] at asleep)
    (fun before covered permitted taken =>
      covered.step (MutexHeld.of_reaches before)
        (SettlesOne.of_reaches before) permitted
        (Step.of_step? taken))

/--
In every run in which the last owed notification never falls between a false
predicate and the sleep, no flusher sleeps uncovered.
-/
theorem flushers_are_woken_without_gap
    (reached :
      (machine Thread config).ReachesBy KeepsWakeups observed state) :
    FlushersCovered state := by
  refine (RoomCovered.of_reaches reached).frame ?_ id id
  intro sleeper asleep
  unfold State.waitingRoom
  cases state.drainedMutex with
  | none =>
      exact asleep
  | some holder =>
      exact Condvar.mem_waiters_sleep.mpr (Or.inr asleep)

omit [DecidableEq Thread] in
/-- A sleeper to whom nobody has promised a notification is not covered. -/
private theorem not_covered
    {sleeper : Thread}
    (asleep : sleeper ∈ state.drainedCv.waiters)
    (zero : state.pending = 0)
    (stage : state.stage ≠ .notifying)
    (nobody : ∀ thread, (state.phase thread).owesNotify = false) :
    ¬ FlushersCovered state := by
  intro covered
  rcases covered sleeper asleep zero with notifying | ⟨thread, owes⟩
  · exact stage notifying
  · rw [nobody thread] at owes
    cases owes

/-- The flusher in the gap falls asleep when nobody owes a notification. -/
private theorem sleep_uncovered
    {holder : Thread}
    (held : MutexHeld state)
    (holds : state.drainedMutex = some holder)
    (zero : state.pending = 0)
    (stage : state.stage ≠ .notifying)
    (nobody : ∀ thread, (state.phase thread).owesNotify = false) :
    ∃ final,
      state.step? config (.client holder) = some (final, []) ∧
        ¬ FlushersCovered final := by
  have phase := (held holder).mpr holds
  refine ⟨{ state.moveTo holder .flushWaiting with
      drainedMutex := none
      drainedCv := state.drainedCv.sleep holder }, ?_, ?_⟩
  · simp [State.step?, State.client?, phase]
  · refine not_covered (Condvar.mem_waiters_sleep.mpr (Or.inl rfl))
      zero stage ?_
    exact forall_update
      (fun _ (phase : Phase Thread) => phase.owesNotify = false)
      (fun other _ => nobody other) rfl

/--
The condition is exact: after a lost notification the flusher in the gap falls
asleep with nothing pending and nobody left to wake it.
-/
theorem lost_wakeup_strands_flusher
    {allowed : State Thread → Event Thread → Prop}
    {event : Event Thread}
    {next : State Thread}
    {emitted : List (Obs Thread)}
    (reached :
      (machine Thread config).ReachesBy allowed observed state)
    (lost : state.LosesWakeup event)
    (taken : state.step? config event = some (next, emitted)) :
    ∃ holder final,
      next.step? config (.client holder) = some (final, []) ∧
        ¬ FlushersCovered final := by
  have step := Step.of_step? taken
  have held := (MutexHeld.of_reaches reached).step step
  cases step with
  | client thread emitted next step =>
      obtain ⟨owes, ⟨zero, holds⟩, stage, others⟩ := lost
      cases step with
      | notify item phase =>
          obtain ⟨holder, isHolder⟩ := Option.ne_none_iff_exists'.mp holds
          refine ⟨holder, sleep_uncovered held isHolder zero stage ?_⟩
          exact forall_update
            (fun _ (phase : Phase Thread) => phase.owesNotify = false)
            others rfl
      | flushPass awaiting | flushBlock awaiting =>
          rcases awaiting with phase | ⟨phase, _⟩ <;>
            simp [phase, Phase.owesNotify] at owes
      | count entry core seen phase
      | pushed item undelivered core seen phase
      | settle item undelivered phase | logReturn logged phase
      | flushSleep phase | flushSink position phase
      | flushReturn position phase | stop core seen phase
      | stopped core seen phase | join broke phase
      | destroySink position phase | destroyReturn position phase =>
          simp [phase, Phase.owesNotify] at owes
  | worker event emitted next isWorker step =>
      rcases isWorker with rfl | ⟨position, todo, rfl, _⟩
      · obtain ⟨notifying, ⟨zero, holds⟩, nobody⟩ := lost
        obtain ⟨holder, isHolder⟩ := Option.ne_none_iff_exists'.mp holds
        cases step with
        | notify core seen stage =>
            exact ⟨holder,
              sleep_uncovered held isHolder zero (by simp) nobody⟩
        | move core seen stage | dispatch item stage
        | write position todo item stage | join stage
        | settle core seen stage | settleLast stage =>
            rw [notifying] at stage
            cases stage
      · exact lost.elim
  | inner event called core seen isCore =>
      cases event <;> cases isCore <;> exact lost.elim
  | log | flush | destroy | wake =>
      exact lost.elim

end Claim

/--
The flusher has found one entry pending when the worker settles that entry and
notifies nobody; then the flusher falls asleep.
-/
theorem flusher_sleeps_through_notification :
    ∃ (observed : List (Obs (Fin 2)))
      (state : State (Fin 2)),
      (machine (Fin 2) { module := "net", sinkCount := 1 }).Reaches
          observed state ∧
        1 ∈ state.drainedCv.waiters ∧
        ¬ FlushersCovered state := by
  obtain ⟨observed, state, reached, feature⟩ :=
    (machine (Fin 2)
        { module := "net", sinkCount := 1 }).exists_reaches
      [.log 0 .warn "lost" false ⟨0, ⟨0, 1, 1, false, 0, 0⟩⟩,
        .client 0, .advance (.client 0),
        .notifyOne (.client 0) .worker, .client 0, .client 0,
        .worker, .advance .worker, .advance .worker, .worker,
        .worker, .write 0, .worker,
        .flush 1, .client 1,
        .worker, .worker, .client 1]
      (fun _ state =>
        decide (1 ∈ state.drainedCv.waiters) &&
          state.pending == 0 &&
          decide (state.stage ≠ .notifying) &&
          decide
            (∀ thread, (state.phase thread).owesNotify = false))
      (by decide +kernel)
  simp only [Bool.and_eq_true, decide_eq_true_eq,
    beq_iff_eq] at feature
  obtain ⟨⟨⟨asleep, zero⟩, stage⟩, nobody⟩ := feature
  exact ⟨observed, state, reached, asleep,
    not_covered asleep zero stage nobody⟩

/--
A run that the theorem covers: the flusher is asleep before the worker settles
the entry, and the worker owes the notification.
-/
theorem flushers_are_woken_without_gap_of_early_sleeper :
    ∃ (observed : List (Obs (Fin 2)))
      (state : State (Fin 2)),
      (machine (Fin 2)
          { module := "net", sinkCount := 1 }).ReachesBy
          KeepsWakeups observed state ∧
        1 ∈ state.drainedCv.waiters ∧
        state.pending = 0 ∧
        FlushersCovered state := by
  obtain ⟨observed, state, reached, feature⟩ :=
    (machine (Fin 2)
        { module := "net", sinkCount := 1 }).exists_reachesBy
      KeepsWakeups
      [.log 0 .warn "kept" false ⟨0, ⟨0, 1, 1, false, 0, 0⟩⟩,
        .client 0, .advance (.client 0),
        .notifyOne (.client 0) .worker, .client 0, .client 0,
        .flush 1, .client 1, .client 1,
        .worker, .advance .worker, .advance .worker, .worker,
        .worker, .write 0, .worker, .worker]
      (fun _ state =>
        decide (1 ∈ state.drainedCv.waiters) &&
          state.pending == 0)
      (by decide +kernel)
  simp only [Bool.and_eq_true, decide_eq_true_eq,
    beq_iff_eq] at feature
  exact ⟨observed, state, reached, feature.1, feature.2,
    flushers_are_woken_without_gap reached⟩

end ConcLogger.Async
