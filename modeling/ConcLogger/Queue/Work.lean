import ConcLogger.Queue.Wakeups

namespace ConcLogger.Queue

open Concurrency

/-!
# What a call of the queue costs

Every atomic step is paid for when a call is made or when a thread is woken
for no reason.  A queued item carries what its drain will cost, a thread that
owes a `notify_all` carries what all the threads that it may wake will need
until they sleep again.  So the steps that are left can be read off a state.
-/

/-- Prices of an item in the deque, of one that is handed out and of a batch. -/
structure Tariff (threads : Nat) where
  queued : Nat
  handed : Nat
  batch : Nat
  covers : handed + batch + 2 * threads < queued

/-- A deque that is swapped has paid for its batch and for its notification. -/
theorem Tariff.covers_batch
    {threads : Nat}
    (tariff : Tariff threads)
    {size : Nat}
    (something : 0 < size) :
    tariff.handed * size + tariff.batch + 2 * threads <
      tariff.queued * size := by
  obtain ⟨smaller, rfl⟩ := Nat.exists_eq_succ_of_ne_zero something.ne'
  have covers := tariff.covers
  have each : tariff.handed * smaller ≤ tariff.queued * smaller :=
    Nat.mul_le_mul_right smaller (by omega)
  rw [Nat.mul_succ, Nat.mul_succ]
  omega

variable {Thread T : Type} {threads : Nat}

/-- What a thread has paid for in advance; one that is woken needs two steps more. -/
def Phase.cost
    (tariff : Tariff threads)
    (asleep : Bool) :
    Phase Thread T → Nat
  | .idle | .undefined _ => 0
  | .push _ _ => tariff.queued + 5
  | .pushBlocking _ => tariff.queued + 4
  | .pushWaiting _ => tariff.queued + (if asleep then 3 else 5)
  | .pushNotifying _ _ => 4
  | .drain _ => 2
  | .drainBlocking _ => 1
  | .drainWaiting _ => if asleep then 0 else 2
  | .drainNotifying out =>
      tariff.handed * out.length + tariff.batch + 2 + 2 * threads
  | .drainReturning true out =>
      tariff.handed * out.length + tariff.batch + 1
  | .stop => 4 + 4 * threads
  | .stopNotifyingEmpty => 3 + 4 * threads
  | .stopNotifyingFull => 2 + 2 * threads
  | .empty => 2
  | .pushReturning _ _ | .drainReturning false _ | .stopReturning
  | .emptyReturning _ => 1

/-- What a call is charged. -/
def Operation.charge (tariff : Tariff threads) : Operation Thread T → Nat
  | .push _ _ => tariff.queued + 5
  | .drain _ => 2
  | .stop => 4 + 4 * threads
  | .empty => 2

/-- Calls and spurious wakeups are charged, everything else is paid for. -/
def Event.charge (tariff : Tariff threads) : Event Thread T → Nat
  | .call _ operation => operation.charge tariff
  | .wake _ => 2
  | .advance _ | .notifyOne _ _ | .ret _ => 0

/-- The steps that a thread takes inside the queue. -/
def Event.own : Event Thread T → Nat
  | .call _ _ | .wake _ => 0
  | .advance _ | .notifyOne _ _ | .ret _ => 1

variable [DecidableEq Thread]

/-- The thread sleeps inside a `wait`. -/
def State.asleep (state : State Thread T) (thread : Thread) : Bool :=
  match state.phase thread with
  | .pushWaiting _ => decide (thread ∈ state.notFull.waiters)
  | .drainWaiting _ => decide (thread ∈ state.notEmpty.waiters)
  | _ => false

/-- What a thread of the queue has paid for. -/
def State.cost
    (tariff : Tariff threads)
    (state : State Thread T)
    (thread : Thread) : Nat :=
  (state.phase thread).cost tariff (state.asleep thread)

/-- What is still to be done in the queue. -/
def State.work
    [Fintype Thread]
    (tariff : Tariff threads)
    (state : State Thread T) : Nat :=
  tariff.queued * state.queue.data.length +
    ∑ thread, state.cost tariff thread

section Steps

variable
  (tariff : Tariff threads)
  {state next : State Thread T}
  {thread : Thread}

/-- A thread that stays where it is needs two more steps at most. -/
private theorem cost_le_add_two
    (same : next.phase thread = state.phase thread) :
    next.cost tariff thread ≤ state.cost tariff thread + 2 := by
  unfold State.cost State.asleep
  rw [same]
  cases state.phase thread with
  | pushWaiting | drainWaiting =>
      simp only [Phase.cost]
      split <;> split <;> omega
  | _ =>
      exact Nat.le_add_right _ _

/-- A thread that stays where it is and is not woken needs no more steps. -/
private theorem cost_le_of_asleep
    (same : next.phase thread = state.phase thread)
    (full : thread ∈ state.notFull.waiters → thread ∈ next.notFull.waiters)
    (empty :
      thread ∈ state.notEmpty.waiters → thread ∈ next.notEmpty.waiters) :
    next.cost tariff thread ≤ state.cost tariff thread := by
  unfold State.cost State.asleep
  rw [same]
  cases state.phase thread with
  | pushWaiting =>
      by_cases asleep : thread ∈ state.notFull.waiters
      · simp [Phase.cost, asleep, full asleep]
      · simp only [Phase.cost, asleep, decide_false]
        split <;> simp
  | drainWaiting =>
      by_cases asleep : thread ∈ state.notEmpty.waiters
      · simp [Phase.cost, asleep, empty asleep]
      · simp only [Phase.cost, asleep, decide_false]
        split <;> simp
  | _ =>
      exact Nat.le_refl _

variable [Fintype Thread]

/-- A step that wakes nobody changes the deque and what its thread has paid for. -/
private theorem work_le_of_mover
    (others :
      ∀ other, other ≠ thread → next.phase other = state.phase other)
    (full :
      ∀ other,
        other ≠ thread →
        other ∈ state.notFull.waiters → other ∈ next.notFull.waiters)
    (empty :
      ∀ other,
        other ≠ thread →
        other ∈ state.notEmpty.waiters → other ∈ next.notEmpty.waiters) :
    next.work tariff + state.cost tariff thread +
        tariff.queued * state.queue.data.length ≤
      state.work tariff + next.cost tariff thread +
        tariff.queued * next.queue.data.length := by
  have changed :=
    sum_le_of_gain (state.cost tariff) (next.cost tariff) (fun _ => 0) thread
      fun other different =>
        cost_le_of_asleep tariff (others other different)
          (full other different) (empty other different)
  simp only [Finset.sum_const_zero] at changed
  unfold State.work
  omega

/-- Moving one thread changes what that thread has paid for. -/
theorem State.work_moveTo_le
    (state : State Thread T)
    (thread : Thread)
    (phase : Phase Thread T) :
    (state.moveTo thread phase).work tariff + state.cost tariff thread ≤
      state.work tariff +
        (state.moveTo thread phase).cost tariff thread := by
  have stays (other : Thread) (different : other ≠ thread) :
      (state.moveTo thread phase).phase other = state.phase other :=
    Function.update_of_ne different _ _
  have changed :=
    work_le_of_mover tariff stays (fun _ _ => id) (fun _ _ => id)
  exact Nat.le_of_add_le_add_right changed

/-- A step that wakes everybody gives each thread two more steps at most. -/
private theorem work_le_of_notifyAll
    (others :
      ∀ other, other ≠ thread → next.phase other = state.phase other)
    (data : next.queue.data = state.queue.data) :
    next.work tariff + state.cost tariff thread ≤
      state.work tariff + next.cost tariff thread +
        2 * Fintype.card Thread := by
  have changed :=
    sum_le_of_gain (state.cost tariff) (next.cost tariff) (fun _ => 2) thread
      fun other different =>
        cost_le_add_two tariff (others other different)
  rw [Finset.sum_const_nat fun _ _ => rfl, Finset.card_univ] at changed
  unfold State.work
  rw [data]
  omega

/-- A `notify_one` gives the chosen thread two more steps at most. -/
private theorem work_le_of_notifyOne
    {chosen : Thread}
    {notEmpty : Condvar Thread}
    (phase : Phase Thread T)
    (notified : state.notEmpty.notifyOne? chosen = some notEmpty)
    (moved :
      next = { state.moveTo thread phase with notEmpty := notEmpty }) :
    next.work tariff + state.cost tariff thread ≤
      state.work tariff + next.cost tariff thread + 2 := by
  have others :
      ∀ other, other ≠ thread → next.phase other = state.phase other := by
    intro other different
    simp [moved, different]
  have changed :=
    sum_le_of_gain (state.cost tariff) (next.cost tariff)
      (fun other => if other = chosen then 2 else 0) thread (by
        intro other different
        by_cases isChosen : other = chosen
        · rw [if_pos isChosen]
          exact cost_le_add_two tariff (others other different)
        · rw [if_neg isChosen]
          refine cost_le_of_asleep tariff (others other different) ?_ ?_
          · rw [moved]
            exact id
          · rw [moved]
            rcases Condvar.notifyOne?_cases notified with
              ⟨_, rfl⟩ | ⟨_, rfl⟩
            · exact id
            · exact fun asleep =>
                Condvar.mem_waiters_rouse.mpr ⟨isChosen, asleep⟩)
  rw [Finset.sum_ite_eq' Finset.univ chosen, if_pos (Finset.mem_univ chosen)]
    at changed
  have data : next.queue.data = state.queue.data := by
    rw [moved]
    rfl
  unfold State.work
  rw [data]
  omega

/-- A spurious wakeup gives its thread two more steps at most. -/
private theorem work_le_of_wake
    (phase : next.phase = state.phase)
    (data : next.queue.data = state.queue.data)
    (full :
      ∀ other,
        other ≠ thread →
        other ∈ state.notFull.waiters → other ∈ next.notFull.waiters)
    (empty :
      ∀ other,
        other ≠ thread →
        other ∈ state.notEmpty.waiters → other ∈ next.notEmpty.waiters) :
    next.work tariff ≤ state.work tariff + 2 := by
  have others :=
    work_le_of_mover tariff
      (fun other _ => congrFun phase other) full empty
  have woken := cost_le_add_two tariff (congrFun phase thread)
  rw [data] at others
  omega

end Steps

/-! ## One step -/

section Costs

variable
  (tariff : Tariff threads)
  {state : State Thread T}
  {thread : Thread}

/-- A push that is about to decide its item has paid for it. -/
private theorem cost_of_deciding
    {item : Item Thread T}
    (deciding : state.Deciding thread item) :
    state.cost tariff thread = tariff.queued + 5 := by
  rcases deciding with ⟨policy, phase⟩ | ⟨phase, awake⟩
  · simp [State.cost, phase, Phase.cost]
  · simp [State.cost, State.asleep, phase, awake, Phase.cost]

/-- A drain that is about to look at the deque has two steps left. -/
private theorem cost_of_draining
    {out : List (Item Thread T)}
    (draining : state.Draining thread out) :
    state.cost tariff thread = 2 := by
  rcases draining with phase | ⟨phase, awake⟩
  · simp [State.cost, phase, Phase.cost]
  · simp [State.cost, State.asleep, phase, awake, Phase.cost]

/-- After an insertion there is a notification left at most. -/
private theorem cost_insert_le
    (state : State Thread T)
    (thread : Thread)
    (item : Item Thread T)
    (undelivered : Nat)
    (contents : List (Item Thread T)) :
    (state.insert thread item undelivered contents).cost tariff thread ≤
      4 := by
  cases contents <;>
    simp [State.cost, State.insert, State.afterInsert, Phase.cost]

end Costs

section Step

variable
  [Fintype Thread]
  (tariff : Tariff (Fintype.card Thread))
  {state next : State Thread T}
  {event : Event Thread T}
  {emitted : List (Obs Thread T)}

/-- Every step is paid for. -/
theorem Step.work_le
    (blank : BlankOuts state)
    (step : Step state event emitted next) :
    next.work tariff + event.own ≤
      state.work tariff + event.charge tariff := by
  have stays
      {mover : Thread}
      {phase : Phase Thread T}
      (moved : next.phase = Function.update state.phase mover phase)
      (other : Thread)
      (different : other ≠ mover) :
      next.phase other = state.phase other :=
    (congrFun moved other).trans (Function.update_of_ne different _ _)
  cases step with
  | call thread operation idle =>
      cases operation with
      | push | drain | stop | empty =>
          have changed :=
            work_le_of_mover tariff (stays rfl) (fun _ _ => id)
              (fun _ _ => id)
          simp [State.begin, State.cost, idle, Phase.cost, Event.own,
            Event.charge, Operation.charge] at changed ⊢
          omega
  | refuse thread item deciding | block thread item deciding
  | undefined thread item deciding =>
      have changed :=
        work_le_of_mover tariff (stays rfl) (fun _ _ => id) (fun _ _ => id)
      rw [cost_of_deciding tariff deciding] at changed
      simp [State.cost, Phase.cost, Event.own, Event.charge] at changed ⊢
      omega
  | insert thread item deciding =>
      have left :=
        cost_insert_le tariff state thread item 0 state.queue.data
      have changed :=
        work_le_of_mover tariff (stays rfl) (fun _ _ => id) (fun _ _ => id)
      rw [cost_of_deciding tariff deciding] at changed
      simp only [State.insert, List.length_append, List.length_singleton,
        Nat.mul_add, Event.own, Event.charge] at changed left ⊢
      omega
  | evict thread item oldest rest deciding free contents =>
      have left := cost_insert_le tariff state thread item 1 rest
      have changed :=
        work_le_of_mover tariff (stays rfl) (fun _ _ => id) (fun _ _ => id)
      rw [cost_of_deciding tariff (Or.inl ⟨_, deciding⟩)] at changed
      simp only [State.insert, contents, List.length_append,
        List.length_cons, List.length_nil, Nat.zero_add, Event.own,
        Event.charge] at changed left ⊢
      omega
  | drainBlock thread out draining | exhaust thread out draining =>
      have changed :=
        work_le_of_mover tariff (stays rfl) (fun _ _ => id) (fun _ _ => id)
      rw [cost_of_draining tariff draining] at changed
      simp [State.cost, Phase.cost, Event.own, Event.charge] at changed ⊢
      omega
  | swap thread out draining free something =>
      have changed :=
        work_le_of_mover tariff (stays rfl) (fun _ _ => id) (fun _ _ => id)
      have paid := tariff.covers_batch (List.length_pos_iff.mpr something)
      have nothingYet := blank.out_eq_nil draining
      subst nothingYet
      rw [cost_of_draining tariff draining] at changed
      simp [State.cost, Phase.cost, Event.own, Event.charge] at changed ⊢
      omega
  | sleepNotFull thread item phase | sleepNotEmpty thread out phase =>
      have changed :=
        work_le_of_mover tariff (stays rfl)
          (fun _ _ asleep => by simp [asleep])
          (fun _ _ asleep => by simp [asleep])
      simp [State.cost, State.asleep, phase, Phase.cost, Event.own,
        Event.charge] at changed ⊢
      omega
  | notifyOne thread chosen item undelivered notEmpty phase notified =>
      have changed :
          _ + state.cost tariff thread ≤ _ :=
        work_le_of_notifyOne tariff (.pushReturning item undelivered)
          notified rfl
      simp [State.cost, phase, Phase.cost, Event.own,
        Event.charge] at changed ⊢
      omega
  | drainNotify thread out phase | stopNotifyEmpty thread phase
  | stopNotifyFull thread phase =>
      have changed := work_le_of_notifyAll tariff (stays rfl) rfl
      simp [State.cost, phase, Phase.cost, Event.own,
        Event.charge] at changed ⊢
      omega
  | stop thread phase | empty thread phase
  | returnPush thread item undelivered phase =>
      have changed :=
        work_le_of_mover tariff (stays rfl) (fun _ _ => id) (fun _ _ => id)
      simp [State.cost, phase, Phase.cost, Event.own, Event.charge,
        BoundedQueue.stop] at changed ⊢
      omega
  | returnOther thread returning =>
      have changed :=
        work_le_of_mover tariff (stays rfl) (fun _ _ => id) (fun _ _ => id)
      have ahead : 1 ≤ state.cost tariff thread := by
        rcases returning with ⟨result, out, phase⟩ | phase | ⟨_, phase⟩
        · cases result <;> simp [State.cost, phase, Phase.cost]
        · simp [State.cost, phase, Phase.cost]
        · simp [State.cost, phase, Phase.cost]
      have finished :
          (state.moveTo thread .idle).cost tariff thread = 0 := by
        simp [State.cost, Phase.cost]
      rw [finished] at changed
      simp only [Event.own, Event.charge, State.queue_moveTo] at changed ⊢
      omega
  | wakeNotFull thread asleep =>
      exact
        work_le_of_wake tariff rfl rfl
          (fun _ different still =>
            Condvar.mem_waiters_rouse.mpr ⟨different, still⟩)
          (fun _ _ => id)
  | wakeNotEmpty thread asleep =>
      exact
        work_le_of_wake tariff rfl rfl (fun _ _ => id)
          (fun _ different still =>
            Condvar.mem_waiters_rouse.mpr ⟨different, still⟩)

end Step

end ConcLogger.Queue
