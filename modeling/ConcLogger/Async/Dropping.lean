import ConcLogger.Async.Pending
import ConcLogger.Async.Origins
import ConcLogger.Async.Termination
import ConcLogger.Queue.Overflow
import ConcLogger.Queue.Rest

namespace ConcLogger.Queue

open Concurrency

/-!
# Logging without waiting

A push that drops does not wait for room.  A `log()` call of a logger with a
drop policy has therefore a fixed number of steps, and the only thing that can
hold it up is a worker that is about to fall asleep with `mutex_` in its hands.
-/

variable {Thread T : Type}

/-- The thread has found no room and waits for some. -/
def Phase.WaitsForRoom : Phase Thread T → Prop
  | .pushBlocking _ | .pushWaiting _ => True
  | _ => False

/-- The steps that are left to a push that does not wait. -/
def Phase.pushLeft : Phase Thread T → Nat
  | .push _ _ => 3
  | .pushNotifying _ _ => 2
  | .pushReturning _ _ => 1
  | _ => 0

section Steps

variable
  [DecidableEq Thread]
  {state next : State Thread T}
  {event : Event Thread T}
  {emitted : List (Obs Thread T)}
  {thread : Thread}

/-- Only one outcome of a critical section of `push` is to wait. -/
private theorem outcome_of_blocked
    {item : Item Thread T}
    {outcome : BoundedQueue.PushOutcome (Item Thread T)}
    (waits :
      (state.pushed thread item outcome).1.phase thread =
        .pushBlocking item) :
    outcome = .blocked := by
  cases outcome with
  | blocked =>
      rfl
  | inserted queue evicted undelivered wasEmpty =>
      cases wasEmpty <;>
        simp [State.pushed, State.afterInsert] at waits
  | refused | undefined =>
      simp [State.pushed] at waits

omit [DecidableEq Thread] in
/-- Only a push that blocks has to wait. -/
private theorem block_of_blocked
    {item : Item Thread T}
    {policy : OverflowPolicy}
    (isBlocked : state.queue.push item policy = .blocked) :
    policy = .block := by
  rcases state.queue.push_cases item policy with
    ⟨shape, _⟩ | ⟨_, isBlock, _⟩ | ⟨shape, _⟩ |
    ⟨oldest, rest, shape, _⟩ | ⟨shape, _⟩
  · rw [isBlocked] at shape
    cases shape
  · exact isBlock
  · rw [isBlocked] at shape
    cases shape
  · rw [isBlocked] at shape
    cases shape
  · rw [isBlocked] at shape
    cases shape

/-- Only a push that blocks begins to wait for room. -/
theorem State.waitsForRoom_origin
    (taken : state.step? event = some (next, emitted))
    (waits : (next.phase thread).WaitsForRoom) :
    (state.phase thread).WaitsForRoom ∨
      ∃ item, state.phase thread = .push item .block := by
  have step := Step.of_step? taken
  by_cases other : thread ≠ event.thread
  · rw [step.phase_other other] at waits
    exact Or.inl waits
  · rw [not_not] at other
    subst other
    cases step with
    | call mover operation =>
        cases operation <;>
          simp [State.begin, Event.thread, Phase.WaitsForRoom] at waits
    | insert mover item | evict mover item oldest rest =>
        simp only [State.insert, State.phase_moveTo, Event.thread,
          Function.update_self, State.afterInsert] at waits
        split at waits <;> exact waits.elim
    | block mover item deciding free full running =>
        rcases deciding with ⟨policy, phase⟩ | ⟨phase, _⟩
        · right
          have computed := State.pushed_of_push phase taken
          have isBlocked :=
            outcome_of_blocked (congrArg (·.1.phase mover) computed |>.trans
              (by simp))
          exact ⟨item, by rw [← block_of_blocked isBlocked]; exact phase⟩
        · left
          simp only [Event.thread]
          rw [phase]
          trivial
    | sleepNotFull mover item phase =>
        left
        simp only [Event.thread]
        rw [phase]
        trivial
    | wakeNotFull | wakeNotEmpty =>
        exact Or.inl waits
    | _ =>
        simp [Event.thread, Phase.WaitsForRoom] at waits

/-- A step of a push that neither waits nor is undefined brings it forward. -/
theorem Step.pushLeft_lt
    (step : Step state event emitted next)
    (own :
      event = .advance thread ∨
        ∃ chosen, event = .notifyOne thread chosen)
    (inside : (state.phase thread).member? = some .push)
    (before : ¬ (state.phase thread).WaitsForRoom)
    (after : ¬ (next.phase thread).WaitsForRoom)
    (defined : ∀ item, next.phase thread ≠ .undefined item) :
    (next.phase thread).pushLeft < (state.phase thread).pushLeft := by
  have isMover : thread = event.thread := by
    rcases own with rfl | ⟨chosen, rfl⟩ <;> rfl
  subst isMover
  have threeLeft
      {item : Item Thread T}
      (deciding : state.Deciding event.thread item) :
      (state.phase event.thread).pushLeft = 3 := by
    rcases deciding with ⟨policy, phase⟩ | ⟨phase, _⟩
    · rw [phase]
      rfl
    · rw [phase] at before
      exact (before trivial).elim
  have twoLeft
      (item : Item Thread T)
      (undelivered : Nat)
      (wasEmpty : Bool) :
      (State.afterInsert item undelivered wasEmpty).pushLeft < 3 := by
    cases wasEmpty <;> simp [State.afterInsert, Phase.pushLeft]
  cases step with
  | call | wakeNotFull | wakeNotEmpty | returnPush | returnOther =>
      rcases own with isAdvance | ⟨chosen, isNotify⟩
      · cases isAdvance
      · cases isNotify
  | refuse mover item deciding =>
      rw [threeLeft deciding]
      simp [Event.thread, Phase.pushLeft]
  | block mover item =>
      exact (after (by simp [Event.thread, Phase.WaitsForRoom])).elim
  | undefined mover item =>
      exact (defined item (by simp [Event.thread])).elim
  | insert mover item deciding =>
      rw [threeLeft deciding]
      simpa [State.insert, Event.thread] using twoLeft item 0 _
  | evict mover item oldest rest phase =>
      rw [threeLeft (Or.inl ⟨_, phase⟩)]
      simpa [State.insert, Event.thread] using twoLeft item 1 _
  | notifyOne mover chosen item undelivered notEmpty phase =>
      simp only [Event.thread]
      rw [phase]
      simp [Phase.pushLeft]
  | sleepNotFull mover item phase =>
      simp only [Event.thread] at before
      rw [phase] at before
      exact (before trivial).elim
  | drainBlock mover out draining | exhaust mover out draining
  | swap mover out draining =>
      have elsewhere := inside.symm.trans draining.inside_drain
      cases elsewhere
  | sleepNotEmpty mover out phase | drainNotify mover out phase
  | stop mover phase | stopNotifyEmpty mover phase
  | stopNotifyFull mover phase | empty mover phase =>
      simp only [Event.thread] at inside
      rw [phase] at inside
      simp [Phase.member?] at inside

end Steps

end ConcLogger.Queue

namespace ConcLogger.Async

open Concurrency

variable {Thread : Type}

/-- The steps that are left to a `log()` call that does not wait for room. -/
def State.logLeft (state : State Thread) (thread : Thread) : Nat :=
  match state.phase thread with
  | .logCounting _ => 7
  | .logPushing =>
      3 + (state.core.shared.phase (.client thread)).pushLeft
  | .logSettling _ _ => 3
  | .logNotifying _ => 2
  | .logReturning _ => 1
  | _ => 0

/-- No client waits for room. -/
def NeverWaits (state : State Thread) : Prop :=
  ∀ thread,
    ¬ (state.core.shared.phase (.client thread)).WaitsForRoom

section Steps

variable
  [DecidableEq Thread]
  {config : LoggerConfig}
  {state next : State Thread}
  {event : Event Thread}
  {emitted : List (Obs Thread)}

/-- With a drop policy no step makes a client wait for room. -/
theorem NeverWaits.step
    (neverWaits : NeverWaits state)
    (dropping : config.policy.overflowPolicy ≠ .block)
    (uniform : Uniform config state)
    (step : Step config state event emitted next) :
    NeverWaits next := by
  intro thread waits
  rcases step.core_cases with ⟨same, _⟩ | ⟨called, taken⟩
  · rw [same] at waits
    exact neverWaits thread waits
  · by_cases other : called = .worker
    · subst other
      have unmoved :=
        (DrainLoop.Step.of_step? taken).clients_of_worker.1 thread
      rw [unmoved] at waits
      exact neverWaits thread waits
    · obtain ⟨inner, isInner⟩ := DrainLoop.Event.exists_shared? other
      have inside := (DrainLoop.State.step?_of_shared? isInner taken).1
      rcases Queue.State.waitsForRoom_origin inside waits with
        before | ⟨item, phase⟩
      · exact neverWaits thread before
      · exact dropping (uniform thread item .block phase).symm

/-- With a drop policy no client ever waits for room. -/
theorem NeverWaits.of_reaches
    {allowed : State Thread → Event Thread → Prop}
    {observed : List (Obs Thread)}
    (dropping : config.policy.overflowPolicy ≠ .block)
    (reached :
      (machine Thread config).ReachesBy allowed observed state) :
    NeverWaits state :=
  reached.invariant
    (fun _ state => NeverWaits state)
    (by
      intro thread waits
      exact waits.elim)
    (fun before neverWaits _ taken =>
      neverWaits.step dropping (.of_reaches before)
        (Step.of_step? taken))

/-- A call of `push` begins in front of its first critical section. -/
private theorem pushLeft_of_count
    {thread : Thread}
    {entry : LogEntry}
    {policy : OverflowPolicy}
    {core : DrainLoop.State Thread LogEntry}
    {seen : List (Queue.Obs (DrainLoop.Party Thread) LogEntry)}
    (taken :
      state.core.step? (.push thread entry policy) = some (core, seen)) :
    (core.shared.phase (.client thread)).pushLeft = 3 := by
  have inside := DrainLoop.State.queueStep_of_shared? rfl taken
  generalize core.shared = shared at inside
  cases inside
  simp [Queue.State.begin, Queue.Phase.pushLeft]

/-- A client's step outside the queue ends its `log()` call or brings it forward. -/
private theorem ClientStep.logLeft_lt
    {thread : Thread}
    (inside : (state.phase thread).inLog = true)
    (step : ClientStep config state thread emitted next)
    (notReturned : ∀ logged, .logReturned thread logged ∉ emitted) :
    (next.phase thread).inLog = true ∧
      next.logLeft thread < state.logLeft thread := by
  cases step with
  | count entry core seen phase taken =>
      have three := pushLeft_of_count taken
      simp [State.logLeft, phase, Phase.inLog, three]
  | pushed item undelivered core seen phase returning taken =>
      by_cases lost : 0 < undelivered <;>
        simp [State.logLeft, phase, returning, Queue.Phase.pushLeft,
          Phase.inLog, lost]
  | settle item undelivered phase =>
      by_cases last : state.pending = undelivered <;>
        simp [State.logLeft, phase, Phase.inLog, last]
  | notify item phase =>
      simp [State.logLeft, phase, Phase.inLog]
  | logReturn logged phase =>
      exact (notReturned logged (List.mem_singleton.mpr rfl)).elim
  | flushPass awaiting | flushBlock awaiting =>
      rcases awaiting with phase | ⟨phase, _⟩ <;>
        simp [phase, Phase.inLog] at inside
  | flushSleep phase | flushSink position phase
  | flushReturn position phase | stop core seen phase
  | stopped core seen phase | join broke phase
  | destroySink position phase | destroyReturn position phase =>
      simp [phase, Phase.inLog] at inside

omit [DecidableEq Thread] in
/-- What somebody else does leaves a `log()` call where it is. -/
private theorem State.logLeft_congr
    {thread : Thread}
    (phase : next.phase thread = state.phase thread)
    (inside :
      next.core.shared.phase (.client thread) =
        state.core.shared.phase (.client thread)) :
    next.logLeft thread = state.logLeft thread := by
  simp only [State.logLeft, phase, inside]

/-- A step of somebody else does not move a client. -/
private theorem Step.client_unmoved
    (step : Step config state event emitted next)
    {thread : Thread}
    (other : event.party? ≠ some (.client thread))
    (inside : (state.phase thread).inLog = true) :
    next.phase thread = state.phase thread ∧
      next.core.shared.phase (.client thread) =
        state.core.shared.phase (.client thread) := by
  cases step with
  | log mover level message withThreadDump environment phase idle
  | flush mover idle | destroy mover idle =>
      have different : thread ≠ mover := by
        rintro rfl
        simp [idle, Phase.inLog] at inside
      simp [different]
  | client mover emitted next step =>
      have different : thread ≠ mover := by
        rintro rfl
        exact other rfl
      refine ⟨?_, ?_⟩
      · cases step <;> simp [different]
      · rcases step.core_cases with ⟨same, _⟩ | ⟨called, owner, taken⟩
        · rw [same]
        · refine (DrainLoop.Step.of_step? taken).phase_of_other ?_
          rw [owner]
          simpa using Ne.symm different
  | worker event emitted next isWorker step =>
      refine ⟨by rw [step.clients_eq.1], ?_⟩
      rcases step.core_cases with ⟨same, _⟩ | taken
      · rw [same]
      · exact (DrainLoop.Step.of_step? taken).clients_of_worker.1 thread
  | inner event called core seen isCore taken =>
      refine ⟨rfl, (DrainLoop.Step.of_step? taken).phase_of_other ?_⟩
      have owner : called.party? = event.party? := by
        cases event <;> cases isCore <;> rfl
      rw [owner]
      exact other
  | wake =>
      exact ⟨rfl, rfl⟩

/-- A caller of `log` that takes a step inside the queue is inside `push`. -/
private theorem Linked.logPushing_of_own
    (linked : Linked state)
    {thread : Thread}
    (inside : (state.phase thread).inLog = true)
    {inner : Queue.Event (DrainLoop.Party Thread) LogEntry}
    {shared : Queue.State (DrainLoop.Party Thread) LogEntry}
    {seen : List (Queue.Obs (DrainLoop.Party Thread) LogEntry)}
    (own :
      inner = .advance (.client thread) ∨
        ∃ chosen, inner = .notifyOne (.client thread) chosen)
    (taken : state.core.shared.step? inner = some (shared, seen)) :
    state.phase thread = .logPushing := by
  have member := linked.clients thread
  cases phase : state.phase thread with
  | logPushing =>
      rfl
  | logCounting | logSettling | logNotifying | logReturning =>
      rw [phase] at member
      have idle := Queue.Phase.eq_idle_of_member? member
      rcases own with rfl | ⟨chosen, rfl⟩ <;>
        simp [Queue.State.step?, Queue.State.advance?,
          Queue.State.notifyOne?, idle] at taken
  | _ =>
      simp [phase, Phase.inLog] at inside

/-- The steps of a client. -/
def Event.isOf (thread : Thread) (event : Event Thread) : Bool :=
  event.party? = some (.client thread)

/-- Every step of the caller brings a call that does not wait forward. -/
private theorem Step.logLeft_le
    (linked : Linked state)
    (before : NeverWaits state)
    (after : NeverWaits next)
    (defined : Queue.Defined next.core.shared)
    (step : Step config state event emitted next)
    {thread : Thread}
    (inside : (state.phase thread).inLog = true)
    (notReturned : ∀ logged, .logReturned thread logged ∉ emitted) :
    (next.phase thread).inLog = true ∧
      (event.isOf thread).toNat + next.logLeft thread ≤
        state.logLeft thread := by
  by_cases own : event.party? = some (.client thread)
  · have counted : event.isOf thread = true := by
      simpa [Event.isOf] using own
    rw [counted, Bool.toNat_true]
    cases step with
    | client mover emitted next step =>
        cases own
        obtain ⟨still, less⟩ := step.logLeft_lt inside notReturned
        exact ⟨still, by omega⟩
    | inner event called core seen isCore taken =>
        obtain ⟨inner, isInner, isOwn⟩ :
            ∃ inner,
              called.shared? = some inner ∧
                (inner = .advance (.client thread) ∨
                  ∃ chosen, inner = .notifyOne (.client thread) chosen) := by
          cases event <;> cases isCore <;> cases own
          · exact ⟨_, rfl, Or.inl rfl⟩
          · exact ⟨_, rfl, Or.inr ⟨_, rfl⟩⟩
        have inQueue := (DrainLoop.State.step?_of_shared? isInner taken).1
        have phase := linked.logPushing_of_own inside isOwn inQueue
        have member := linked.clients thread
        rw [phase] at member
        have less :=
          (Queue.Step.of_step? inQueue).pushLeft_lt isOwn member
            (before thread) (after thread)
            (defined (.client thread))
        refine ⟨inside, ?_⟩
        simp only [State.logLeft, phase]
        omega
    | worker event emitted next isWorker step =>
        rcases isWorker with rfl | ⟨position, todo, rfl, _⟩ <;> cases own
    | log | flush | destroy | wake =>
        cases own
  · have counted : event.isOf thread = false := by
      simpa [Event.isOf] using own
    obtain ⟨phase, inQueue⟩ := step.client_unmoved own inside
    rw [counted, State.logLeft_congr phase inQueue, phase]
    simpa using inside

end Steps

/-! ## A whole call -/

section Calls

variable
  [DecidableEq Thread]
  {config : LoggerConfig}
  {observed : List (Obs Thread)}
  {state : State Thread}

omit [DecidableEq Thread] in
/-- A `log()` call has seven steps at most. -/
private theorem logLeft_le_seven
    (state : State Thread)
    (thread : Thread) :
    state.logLeft thread ≤ 7 := by
  unfold State.logLeft
  cases state.phase thread with
  | logPushing =>
      cases state.core.shared.phase (.client thread) <;>
        simp [Queue.Phase.pushLeft]
  | _ =>
      simp

omit [DecidableEq Thread] in
/-- With a drop policy nobody but the worker ever keeps `mutex_`. -/
private theorem holder_eq_worker
    (neverWaits : NeverWaits state)
    (coreLinked : DrainLoop.Linked state.core)
    (holder : Queue.HolderBlocks state.core.shared)
    {party : DrainLoop.Party Thread}
    (holds : state.core.shared.mutex = some party) :
    party = .worker ∧
      ∃ out, state.core.shared.phase .worker = .drainBlocking out := by
  have blocking := holder party holds
  cases party with
  | worker =>
      refine ⟨rfl, ?_⟩
      have outside := coreLinked.worker_outside.1
      cases phase : state.core.shared.phase .worker <;>
        simp [phase, Queue.Phase.Blocking, Queue.Phase.member?]
          at blocking outside ⊢
  | client thread =>
      have waits := neverWaits thread
      have outside := coreLinked.clients thread
      cases phase : state.core.shared.phase (.client thread) <;>
        simp [phase, Queue.Phase.Blocking, Queue.Phase.WaitsForRoom,
          Queue.Phase.member?] at blocking waits outside

/-- With the mutex free a caller of `log` that does not wait can take a step. -/
private theorem enabled_of_unlocked
    (config : LoggerConfig)
    (linked : Linked state)
    (neverWaits : NeverWaits state)
    (defined : Queue.Defined state.core.shared)
    (free : state.core.shared.mutex = none)
    {thread : Thread}
    (inside : (state.phase thread).inLog = true) :
    Enabled (machine Thread config) Event.party? (.client thread)
      state := by
  have member := linked.clients thread
  cases phase : state.phase thread with
  | logCounting entry =>
      rw [phase] at member
      have idle := Queue.Phase.eq_idle_of_member? member
      refine ⟨.client thread, rfl, ?_⟩
      simp [machine, State.step?, State.client?, phase, State.within,
        DrainLoop.State.step?, DrainLoop.Event.shared?,
        DrainLoop.State.within, Queue.State.step?, idle]
  | logSettling | logNotifying | logReturning =>
      refine ⟨.client thread, rfl, ?_⟩
      simp [machine, State.step?, State.client?, phase]
  | logPushing =>
      rw [phase] at member
      cases inQueue : state.core.shared.phase (.client thread) with
      | push item policy =>
          refine ⟨.advance (.client thread), rfl, ?_⟩
          simp [machine, State.step?, State.within, DrainLoop.State.step?,
            DrainLoop.Event.shared?, DrainLoop.State.within,
            Queue.State.step?, Queue.State.advance?, inQueue, free]
      | pushNotifying item undelivered =>
          obtain ⟨chosen, notEmpty, notified⟩ :=
            state.core.shared.notEmpty.exists_notifyOne?
              (.client thread)
          refine ⟨.notifyOne (.client thread) chosen, rfl, ?_⟩
          simp [machine, State.step?, State.within, DrainLoop.State.step?,
            DrainLoop.Event.shared?, DrainLoop.State.within,
            Queue.State.step?, Queue.State.notifyOne?, inQueue, notified]
      | pushReturning item undelivered =>
          refine ⟨.client thread, rfl, ?_⟩
          simp [machine, State.step?, State.client?, phase, inQueue,
            State.within, DrainLoop.State.step?, DrainLoop.Event.shared?,
            DrainLoop.State.within, Queue.State.step?, Queue.State.ret?]
      | pushBlocking | pushWaiting =>
          exact (neverWaits thread (by rw [inQueue]; trivial)).elim
      | undefined item =>
          exact (defined _ item inQueue).elim
      | _ =>
          simp [inQueue, Queue.Phase.member?, Phase.member?] at member
  | _ =>
      simp [phase, Phase.inLog] at inside

/-- A worker that keeps the mutex gives it up with its next step. -/
private theorem worker_unlocks
    (config : LoggerConfig)
    {out : List (Item Thread)}
    (blocking :
      state.core.shared.phase .worker = .drainBlocking out) :
    ∃ next,
      state.step? config (.advance .worker) = some (next, []) ∧
        next.core.shared.mutex = none ∧
        next.phase = state.phase := by
  refine ⟨{ state with
      core := { state.core with
        shared := { state.core.shared.moveTo .worker (.drainWaiting out) with
          mutex := none
          notEmpty := state.core.shared.notEmpty.sleep .worker } } },
    ?_, rfl, rfl⟩
  simp [State.step?, State.within, DrainLoop.State.step?,
    DrainLoop.Event.shared?, DrainLoop.State.within, Queue.State.step?,
    Queue.State.advance?, blocking]

/--
With a drop policy `log()` does not wait for the sinks: a call takes fewer
than seven steps before the one that returns, whatever the others do meanwhile,
and it can always take the next one, at the latest after a worker that is
falling asleep has released `mutex_` with a single step.
-/
theorem dropping_log_does_not_wait
    (positive : 0 < config.policy.queueCapacity)
    (dropping : config.policy.overflowPolicy ≠ .block)
    (reached : (machine Thread config).Reaches observed state)
    {thread : Thread}
    (inside : (state.phase thread).inLog = true) :
    (∀ events final emitted,
      (machine Thread config).run? state events = some (final, emitted) →
      (∀ logged, .logReturned thread logged ∉ emitted) →
      events.countP (Event.isOf thread) < 7) ∧
      (Enabled (machine Thread config) Event.party? (.client thread)
          state ∨
        ∃ next,
          state.step? config (.advance .worker) = some (next, []) ∧
            Enabled (machine Thread config) Event.party?
              (.client thread) next) := by
  refine ⟨?_, ?_⟩
  · intro events final emitted executed notReturned
    obtain ⟨still, counted⟩ :=
      reached.countP_le (Event.isOf thread) (·.logLeft thread)
        (fun state => (state.phase thread).inLog = true)
        (fun seen => ∀ logged, seen ≠ .logReturned thread logged)
        (fun before inside _ taken quiet =>
          have after := before.step _ trivial taken
          (Step.of_step? taken).logLeft_le (.of_reaches before)
            (.of_reaches dropping before) (.of_reaches dropping after)
            (.of_reaches positive (reaches_queue after)) inside
            fun logged isReturn => quiet _ isReturn logged rfl)
        inside (Machine.runsBy_of_forall (fun _ _ => trivial) _ _)
        executed (by
          rintro seen isSeen logged rfl
          exact notReturned logged isSeen)
    have atMost := logLeft_le_seven state thread
    have some : 0 < final.logLeft thread := by
      unfold State.logLeft
      cases phase : final.phase thread <;>
        simp [phase, Phase.inLog] at still ⊢
    omega
  · have unlockedEnabled
        {observed : List (Obs Thread)}
        {state : State Thread}
        (reached : (machine Thread config).Reaches observed state)
        (free : state.core.shared.mutex = none)
        (inside : (state.phase thread).inLog = true) :=
      enabled_of_unlocked config (.of_reaches reached)
        (.of_reaches dropping reached)
        (.of_reaches positive (reaches_queue reached)) free inside
    cases mutex : state.core.shared.mutex with
    | none =>
        exact Or.inl (unlockedEnabled reached mutex inside)
    | some party =>
        obtain ⟨rfl, out, blocking⟩ :=
          holder_eq_worker (.of_reaches dropping reached)
            (.of_reaches (reaches_core reached))
            (.of_reaches (reaches_queue reached)) mutex
        obtain ⟨next, taken, free, phase⟩ :=
          worker_unlocks config blocking
        have after :
            (machine Thread config).Reaches (observed ++ []) next :=
          reached.step (.advance .worker) trivial taken
        refine Or.inr ⟨next, taken, ?_⟩
        exact unlockedEnabled after free (by rw [phase]; exact inside)

/-- One sink and room for one entry; what comes in on top of it is dropped. -/
def dropping : LoggerConfig where
  module := "net"
  sinkCount := 1
  policy :=
    { queueCapacity := 1
      overflowPolicy := .dropNewest }

/--
The deque is full, the worker has not started and a second caller is about to
push: it comes back by itself.
-/
theorem dropping_log_does_not_wait_of_full_deque :
    ∃ (observed : List (Obs (Fin 2))) (state : State (Fin 2)),
      (machine (Fin 2) dropping).Reaches observed state ∧
        state.core.shared.queue.data.length = 1 ∧
        (∀ events final emitted,
          (machine (Fin 2) dropping).run? state events =
            some (final, emitted) →
          (∀ logged, .logReturned 1 logged ∉ emitted) →
          events.countP (Event.isOf 1) < 7) := by
  obtain ⟨observed, state, reached, feature⟩ :=
    (machine (Fin 2) dropping).exists_reaches
      [.log 0 .warn "first" false ⟨0, ⟨0, 1, 1, false, 0, 0⟩⟩,
        .client 0, .advance (.client 0),
        .log 1 .warn "second" false ⟨0, ⟨0, 1, 1, false, 0, 0⟩⟩,
        .client 1]
      (fun _ state =>
        state.core.shared.queue.data.length == 1 &&
          (state.phase 1).inLog)
      (by decide +kernel)
  simp only [Bool.and_eq_true, beq_iff_eq] at feature
  exact ⟨observed, state, reached, feature.1,
    (dropping_log_does_not_wait (by decide) (by decide) reached
      feature.2).1⟩

end Calls

end ConcLogger.Async
