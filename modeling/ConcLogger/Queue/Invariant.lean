import ConcLogger.Queue.Steps

namespace ConcLogger.Queue

open Concurrency

/-!
# The mutex, the sleepers and the phases agree

`Sound` is the invariant on which the other queue invariants rest: a thread
between a false predicate and its sleep holds `mutex_`, what it has read under
the mutex is still true, and only threads inside the matching `wait` sleep on
a condition variable.
-/

variable {Thread T : Type}

/-- What ties the phase of one thread to the shared state. -/
structure PhaseSound
    (queue : BoundedQueue (Item Thread T))
    (mutex : Option Thread)
    (notFull notEmpty : Condvar Thread)
    (thread : Thread)
    (phase : Phase Thread T) : Prop where
  holdsMutex :
    phase.Blocking → mutex = some thread
  asleepNotFull :
    thread ∈ notFull.waiters → ∃ item, phase = .pushWaiting item
  asleepNotEmpty :
    thread ∈ notEmpty.waiters → ∃ out, phase = .drainWaiting out
  pushBlocked :
    ∀ item,
      phase = .pushBlocking item →
      queue.capacity ≤ queue.data.length ∧ queue.stopped = false
  drainBlocked :
    ∀ out,
      phase = .drainBlocking out →
      queue.data = [] ∧ queue.stopped = false

namespace PhaseSound

variable
  {queue queue' : BoundedQueue (Item Thread T)}
  {mutex mutex' : Option Thread}
  {notFull notFull' notEmpty notEmpty' : Condvar Thread}
  {thread : Thread}
  {phase : Phase Thread T}

/-- A thread that is awake and does not hold the mutex is unconstrained. -/
theorem of_awake
    (released : ¬ phase.Blocking)
    (awakeNotFull : thread ∉ notFull.waiters)
    (awakeNotEmpty : thread ∉ notEmpty.waiters) :
    PhaseSound queue mutex notFull notEmpty thread phase where
  holdsMutex blocking := (released blocking).elim
  asleepNotFull asleep := (awakeNotFull asleep).elim
  asleepNotEmpty asleep := (awakeNotEmpty asleep).elim
  pushBlocked item shape := (released (by simp [shape, Phase.Blocking])).elim
  drainBlocked out shape := (released (by simp [shape, Phase.Blocking])).elim

/--
A thread without the mutex does not notice changes of the queue, nor does it
notice that other threads fall asleep or wake up.
-/
theorem frame
    (sound : PhaseSound queue mutex notFull notEmpty thread phase)
    (released : ¬ phase.Blocking)
    (full : thread ∈ notFull'.waiters → thread ∈ notFull.waiters)
    (empty : thread ∈ notEmpty'.waiters → thread ∈ notEmpty.waiters) :
    PhaseSound queue' mutex' notFull' notEmpty' thread phase where
  holdsMutex blocking := (released blocking).elim
  asleepNotFull asleep := sound.asleepNotFull (full asleep)
  asleepNotEmpty asleep := sound.asleepNotEmpty (empty asleep)
  pushBlocked item shape := (released (by simp [shape, Phase.Blocking])).elim
  drainBlocked out shape := (released (by simp [shape, Phase.Blocking])).elim

/-- Wakeups alone never invalidate a phase. -/
theorem wakeups
    (sound : PhaseSound queue mutex notFull notEmpty thread phase)
    (full : thread ∈ notFull'.waiters → thread ∈ notFull.waiters)
    (empty : thread ∈ notEmpty'.waiters → thread ∈ notEmpty.waiters) :
    PhaseSound queue mutex notFull' notEmpty' thread phase where
  holdsMutex := sound.holdsMutex
  asleepNotFull asleep := sound.asleepNotFull (full asleep)
  asleepNotEmpty asleep := sound.asleepNotEmpty (empty asleep)
  pushBlocked := sound.pushBlocked
  drainBlocked := sound.drainBlocked

end PhaseSound

/-- Every thread's phase agrees with the shared state. -/
def Sound (state : State Thread T) : Prop :=
  ∀ thread,
    PhaseSound state.queue state.mutex state.notFull state.notEmpty
      thread (state.phase thread)

namespace Sound

/-- A new queue is sound. -/
theorem initial
    (capacity : Nat) :
    Sound (State.initial capacity : State Thread T) := by
  intro thread
  apply PhaseSound.of_awake <;>
    simp [State.initial, Phase.Blocking]

variable {state : State Thread T}

/-- Nobody is between a false predicate and its sleep while the mutex is free. -/
theorem not_blocking
    (sound : Sound state)
    (free : state.mutex = none)
    (thread : Thread) :
    ¬ (state.phase thread).Blocking := by
  intro blocking
  have held := (sound thread).holdsMutex blocking
  rw [free] at held
  cases held

/-- Only threads inside `not_full_.wait` sleep on `not_full_`. -/
theorem awake_notFull
    (sound : Sound state)
    {thread : Thread}
    (outside : ∀ item, state.phase thread ≠ .pushWaiting item) :
    thread ∉ state.notFull.waiters := by
  intro asleep
  obtain ⟨item, shape⟩ := (sound thread).asleepNotFull asleep
  exact outside item shape

/-- Only threads inside `not_empty_.wait` sleep on `not_empty_`. -/
theorem awake_notEmpty
    (sound : Sound state)
    {thread : Thread}
    (outside : ∀ out, state.phase thread ≠ .drainWaiting out) :
    thread ∉ state.notEmpty.waiters := by
  intro asleep
  obtain ⟨out, shape⟩ := (sound thread).asleepNotEmpty asleep
  exact outside out shape

/-- A thread outside both waits is awake. -/
theorem awake
    (sound : Sound state)
    {thread : Thread}
    (outsideFull : ∀ item, state.phase thread ≠ .pushWaiting item)
    (outsideEmpty : ∀ out, state.phase thread ≠ .drainWaiting out) :
    thread ∉ state.notFull.waiters ∧
      thread ∉ state.notEmpty.waiters :=
  ⟨sound.awake_notFull outsideFull, sound.awake_notEmpty outsideEmpty⟩

/-- A thread that is about to decide its item is awake. -/
theorem deciding_awake
    (sound : Sound state)
    {thread : Thread}
    {item : Item Thread T}
    (deciding : state.Deciding thread item) :
    thread ∉ state.notFull.waiters ∧
      thread ∉ state.notEmpty.waiters := by
  rcases deciding with ⟨policy, phase⟩ | ⟨phase, awake⟩
  · exact sound.awake (by simp [phase]) (by simp [phase])
  · exact ⟨awake, sound.awake_notEmpty (by simp [phase])⟩

/-- A thread that is about to drain is awake. -/
theorem draining_awake
    (sound : Sound state)
    {thread : Thread}
    {out : List (Item Thread T)}
    (draining : state.Draining thread out) :
    thread ∉ state.notFull.waiters ∧
      thread ∉ state.notEmpty.waiters := by
  rcases draining with phase | ⟨phase, awake⟩
  · exact ⟨sound.awake_notFull (by simp [phase]),
      sound.awake_notEmpty (by simp [phase])⟩
  · exact ⟨sound.awake_notFull (by simp [phase]), awake⟩

/-- Nobody else holds the mutex that a blocking thread holds. -/
private theorem others_released
    (sound : Sound state)
    {thread other : Thread}
    (blocking : (state.phase thread).Blocking)
    (different : other ≠ thread) :
    ¬ (state.phase other).Blocking := by
  intro otherBlocking
  have held := (sound thread).holdsMutex blocking
  have heldByOther := (sound other).holdsMutex otherBlocking
  rw [held] at heldByOther
  exact different (Option.some.inj heldByOther).symm

variable [DecidableEq Thread]

/-- An awake thread may move to any phase that does not need the mutex. -/
private theorem move
    (sound : Sound state)
    {thread : Thread}
    {phase : Phase Thread T}
    (released : ¬ phase.Blocking)
    (awake :
      thread ∉ state.notFull.waiters ∧
        thread ∉ state.notEmpty.waiters) :
    Sound (state.moveTo thread phase) :=
  forall_update (PhaseSound _ _ _ _)
    (fun other _ => sound other)
    (.of_awake released awake.1 awake.2)

/-- With the mutex free, the moving thread may also change the queue. -/
private theorem move_free
    (sound : Sound state)
    (free : state.mutex = none)
    {thread : Thread}
    {phase : Phase Thread T}
    {queue : BoundedQueue (Item Thread T)}
    (released : ¬ phase.Blocking)
    (awake :
      thread ∉ state.notFull.waiters ∧
        thread ∉ state.notEmpty.waiters) :
    Sound { state.moveTo thread phase with queue := queue } := by
  refine forall_update (PhaseSound _ _ _ _) ?_ (.of_awake released awake.1 awake.2)
  intro other _
  exact (sound other).frame (sound.not_blocking free other) id id

/-- Taking the mutex to fall asleep is sound when the predicate is false. -/
private theorem take_mutex
    (sound : Sound state)
    (free : state.mutex = none)
    {thread : Thread}
    {phase : Phase Thread T}
    (moved :
      PhaseSound state.queue (some thread) state.notFull
        state.notEmpty thread phase) :
    Sound { state.moveTo thread phase with mutex := some thread } := by
  refine forall_update (PhaseSound _ _ _ _) ?_ moved
  intro other _
  exact (sound other).frame (sound.not_blocking free other) id id

/-- A thread outside both waits may wake others. -/
private theorem notify
    (sound : Sound state)
    {thread : Thread}
    {phase : Phase Thread T}
    {notFull notEmpty : Condvar Thread}
    (released : ¬ phase.Blocking)
    (awake :
      thread ∉ state.notFull.waiters ∧
        thread ∉ state.notEmpty.waiters)
    (fewerNotFull : notFull.waiters ⊆ state.notFull.waiters)
    (fewerNotEmpty : notEmpty.waiters ⊆ state.notEmpty.waiters) :
    Sound
      { state.moveTo thread phase with
        notFull := notFull
        notEmpty := notEmpty } := by
  refine forall_update (PhaseSound _ _ _ _) ?_
    (.of_awake released
      (fun asleep => awake.1 (fewerNotFull asleep))
      (fun asleep => awake.2 (fewerNotEmpty asleep)))
  intro other _
  exact (sound other).wakeups
    (fun asleep => fewerNotFull asleep)
    (fun asleep => fewerNotEmpty asleep)

/-- Every step preserves soundness. -/
theorem step
    {event : Event Thread T}
    {emitted : List (Obs Thread T)}
    {next : State Thread T}
    (sound : Sound state)
    (step : Step state event emitted next) :
    Sound next := by
  cases step with
  | call thread operation idle =>
      have awake :
          thread ∉ state.notFull.waiters ∧
            thread ∉ state.notEmpty.waiters :=
        sound.awake (by simp [idle]) (by simp [idle])
      cases operation <;>
        exact sound.move (by simp [Phase.Blocking]) awake
  | refuse thread item deciding =>
      exact sound.move (by simp [Phase.Blocking])
        (sound.deciding_awake deciding)
  | block thread item deciding free full running =>
      have awake := sound.deciding_awake deciding
      refine sound.take_mutex free {
        holdsMutex := fun _ => rfl
        asleepNotFull := fun asleep => (awake.1 asleep).elim
        asleepNotEmpty := fun asleep => (awake.2 asleep).elim
        pushBlocked := fun _ _ => ⟨full, running⟩
        drainBlocked := ?_
      }
      intro out shape
      cases shape
  | undefined thread item deciding =>
      exact sound.move (by simp [Phase.Blocking])
        (sound.deciding_awake deciding)
  | insert thread item deciding free =>
      refine sound.move_free free ?_ (sound.deciding_awake deciding)
      unfold State.afterInsert
      split <;> simp [Phase.Blocking]
  | evict thread item oldest rest phase free =>
      refine sound.move_free free ?_
        (sound.deciding_awake (Or.inl ⟨_, phase⟩))
      unfold State.afterInsert
      split <;> simp [Phase.Blocking]
  | sleepNotFull thread item phase =>
      have blocking : (state.phase thread).Blocking := by
        simp [phase, Phase.Blocking]
      refine forall_update (PhaseSound _ _ _ _) ?_ {
        holdsMutex := ?_
        asleepNotFull := fun _ => ⟨item, rfl⟩
        asleepNotEmpty := ?_
        pushBlocked := ?_
        drainBlocked := ?_
      }
      · intro other different
        refine (sound other).frame
          (sound.others_released blocking different) ?_ id
        intro asleep
        exact (Condvar.mem_waiters_sleep.mp asleep).resolve_left
          different
      · simp [Phase.Blocking]
      · intro asleep
        exact (sound.awake_notEmpty (by simp [phase]) asleep).elim
      · intro _ shape
        cases shape
      · intro _ shape
        cases shape
  | notifyOne thread chosen item undelivered notEmpty phase notified =>
      exact sound.notify (by simp [Phase.Blocking])
        (sound.awake (by simp [phase]) (by simp [phase]))
        (Finset.Subset.refl _) (Condvar.notifyOne?_subset notified)
  | drainBlock thread out draining free nothing running =>
      have awake := sound.draining_awake draining
      refine sound.take_mutex free {
        holdsMutex := fun _ => rfl
        asleepNotFull := fun asleep => (awake.1 asleep).elim
        asleepNotEmpty := fun asleep => (awake.2 asleep).elim
        pushBlocked := ?_
        drainBlocked := fun _ _ => ⟨nothing, running⟩
      }
      intro item shape
      cases shape
  | exhaust thread out draining =>
      exact sound.move (by simp [Phase.Blocking])
        (sound.draining_awake draining)
  | swap thread out draining free =>
      exact sound.move_free free (by simp [Phase.Blocking])
        (sound.draining_awake draining)
  | sleepNotEmpty thread out phase =>
      have blocking : (state.phase thread).Blocking := by
        simp [phase, Phase.Blocking]
      refine forall_update (PhaseSound _ _ _ _) ?_ {
        holdsMutex := ?_
        asleepNotFull := ?_
        asleepNotEmpty := fun _ => ⟨out, rfl⟩
        pushBlocked := ?_
        drainBlocked := ?_
      }
      · intro other different
        refine (sound other).frame
          (sound.others_released blocking different) id ?_
        intro asleep
        exact (Condvar.mem_waiters_sleep.mp asleep).resolve_left
          different
      · simp [Phase.Blocking]
      · intro asleep
        exact (sound.awake_notFull (by simp [phase]) asleep).elim
      · intro _ shape
        cases shape
      · intro _ shape
        cases shape
  | drainNotify thread out phase =>
      exact sound.notify (by simp [Phase.Blocking])
        (sound.awake (by simp [phase]) (by simp [phase]))
        (by simp) (Finset.Subset.refl _)
  | stop thread phase free =>
      exact sound.move_free free (by simp [Phase.Blocking])
        (sound.awake (by simp [phase]) (by simp [phase]))
  | stopNotifyEmpty thread phase =>
      exact sound.notify (by simp [Phase.Blocking])
        (sound.awake (by simp [phase]) (by simp [phase]))
        (Finset.Subset.refl _) (by simp)
  | stopNotifyFull thread phase =>
      exact sound.notify (by simp [Phase.Blocking])
        (sound.awake (by simp [phase]) (by simp [phase]))
        (by simp) (Finset.Subset.refl _)
  | empty thread phase =>
      exact sound.move (by simp [Phase.Blocking])
        (sound.awake (by simp [phase]) (by simp [phase]))
  | wakeNotFull thread =>
      intro other
      refine (sound other).wakeups ?_ id
      exact fun asleep => (Condvar.mem_waiters_rouse.mp asleep).2
  | wakeNotEmpty thread =>
      intro other
      apply (sound other).wakeups id
      exact fun asleep => (Condvar.mem_waiters_rouse.mp asleep).2
  | returnPush thread item undelivered phase =>
      exact sound.move (by simp [Phase.Blocking])
        (sound.awake (by simp [phase]) (by simp [phase]))
  | returnOther thread returning =>
      refine sound.move (by simp [Phase.Blocking])
        (sound.awake ?_ ?_)
      all_goals
        rcases returning with ⟨_, _, phase⟩ | phase | ⟨_, phase⟩ <;>
          simp [phase]

/-- Every reachable state is sound. -/
theorem of_reaches
    {capacity : Nat}
    {allowed : State Thread T → Event Thread T → Prop}
    {observed : List (Obs Thread T)}
    (reached :
      (machine Thread T capacity).ReachesBy allowed observed state) :
    Sound state :=
  reached.invariant
    (fun _ state => Sound state)
    (Sound.initial capacity)
    (fun _ sound _ taken => sound.step (Step.of_step? taken))

end Sound

end ConcLogger.Queue
