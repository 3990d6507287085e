import ConcLogger.BoundedQueue
import ConcLogger.Concurrency.Condvar
import ConcLogger.Concurrency.Machine

namespace ConcLogger.Queue

open Concurrency

/-!
# Threads inside the bounded queue

Any number of threads call `push`, `drain`, `stop` and `empty` on one queue.
A thread advances by one atomic step at a time: a critical section, falling
asleep inside `wait`, or one notification sent after `mutex_` was released.

A thread whose predicate was false keeps `mutex_` until it has fallen asleep,
so notifications, which need no mutex, may come between the two.
-/

/-- An item together with the `push()` call that brought it. -/
structure Item (Thread T : Type) where
  producer : Thread
  index : Nat
  value : T
  deriving Repr, DecidableEq

/-- A member function call. -/
inductive Operation (Thread T : Type) where
  | push (value : T) (policy : OverflowPolicy)
  | drain (out : List (Item Thread T))
  | stop
  | empty

/-- The member functions. -/
inductive Member where
  | push
  | drain
  | stop
  | empty
  deriving Repr, DecidableEq

/-- The member function that a call enters. -/
def Operation.member {Thread T : Type} : Operation Thread T → Member
  | .push _ _ => .push
  | .drain _ => .drain
  | .stop => .stop
  | .empty => .empty

/-- Where a thread is inside the queue. -/
inductive Phase (Thread T : Type) where
  | idle
  /-- `push` before it acquires `mutex_`. -/
  | push (item : Item Thread T) (policy : OverflowPolicy)
  /-- The predicate of `not_full_` was false; `mutex_` is still held. -/
  | pushBlocking (item : Item Thread T)
  /-- Inside `not_full_.wait` without the mutex, asleep or woken. -/
  | pushWaiting (item : Item Thread T)
  /-- The item went into an empty deque; `not_empty_.notify_one` is next. -/
  | pushNotifying (item : Item Thread T) (undelivered : Nat)
  | pushReturning (item : Item Thread T) (undelivered : Nat)
  /-- `pop_front` was executed on an empty deque. -/
  | undefined (item : Item Thread T)
  /-- `drain` before it acquires `mutex_`. -/
  | drain (out : List (Item Thread T))
  /-- The predicate of `not_empty_` was false; `mutex_` is still held. -/
  | drainBlocking (out : List (Item Thread T))
  /-- Inside `not_empty_.wait` without the mutex, asleep or woken. -/
  | drainWaiting (out : List (Item Thread T))
  /-- The deques were swapped; `not_full_.notify_all` is next. -/
  | drainNotifying (out : List (Item Thread T))
  | drainReturning (result : Bool) (out : List (Item Thread T))
  | stop
  /-- `stopped_` is set; both `notify_all` calls are still to come. -/
  | stopNotifyingEmpty
  /-- `not_full_.notify_all` is still to come. -/
  | stopNotifyingFull
  | stopReturning
  | empty
  | emptyReturning (result : Bool)

/-- The queue, its mutex, its condition variables and all threads. -/
structure State (Thread T : Type) where
  queue : BoundedQueue (Item Thread T)
  mutex : Option Thread
  notFull : Condvar Thread
  notEmpty : Condvar Thread
  phase : Thread → Phase Thread T
  pushes : Thread → Nat

/-- Scheduler choices. -/
inductive Event (Thread T : Type) where
  | call (thread : Thread) (operation : Operation Thread T)
  /-- The next atomic step of a thread. -/
  | advance (thread : Thread)
  /-- `not_empty_.notify_one`, waking the chosen thread if anybody sleeps. -/
  | notifyOne (thread chosen : Thread)
  /-- A spurious wakeup. -/
  | wake (thread : Thread)
  | ret (thread : Thread)

/-- What the queue does to items. -/
inductive Obs (Thread T : Type) where
  | inserted (item : Item Thread T)
  | evicted (item : Item Thread T)
  | refused (item : Item Thread T)
  /-- The last critical section of a `push`, with the value it will return. -/
  | decided (item : Item Thread T) (undelivered : Nat)
  | drained (batch : List (Item Thread T))
  /-- `push` has returned. -/
  | returned (item : Item Thread T) (undelivered : Nat)
  deriving Repr, DecidableEq

namespace State

variable {Thread T : Type}

/-- A new queue that no thread is using. -/
def initial (capacity : Nat) : State Thread T where
  queue := .new capacity
  mutex := none
  notFull := .empty
  notEmpty := .empty
  phase := fun _ => .idle
  pushes := fun _ => 0

variable [DecidableEq Thread]

/-- Change the phase of one thread only. -/
def moveTo
    (state : State Thread T)
    (thread : Thread)
    (phase : Phase Thread T) :
    State Thread T :=
  { state with phase := Function.update state.phase thread phase }

/-- Begin a member function; a `push` call stamps its item. -/
def begin
    (state : State Thread T)
    (thread : Thread) :
    Operation Thread T → State Thread T
  | .push value policy =>
      { state.moveTo thread
          (.push ⟨thread, state.pushes thread, value⟩ policy) with
        pushes :=
          Function.update state.pushes thread (state.pushes thread + 1) }
  | .drain out =>
      state.moveTo thread (.drain out)
  | .stop =>
      state.moveTo thread .stop
  | .empty =>
      state.moveTo thread .empty

/-- The phase after an insertion: `notify_one` only if the deque was empty. -/
def afterInsert
    (item : Item Thread T)
    (undelivered : Nat)
    (wasEmpty : Bool) :
    Phase Thread T :=
  if wasEmpty then
    .pushNotifying item undelivered
  else
    .pushReturning item undelivered

/-- Carry out the outcome of a critical section of `push`. -/
def pushed
    (state : State Thread T)
    (thread : Thread)
    (item : Item Thread T) :
    BoundedQueue.PushOutcome (Item Thread T) →
      State Thread T × List (Obs Thread T)
  | .refused =>
      (state.moveTo thread (.pushReturning item 1),
        [.refused item, .decided item 1])
  | .blocked =>
      ({ state.moveTo thread (.pushBlocking item) with
          mutex := some thread }, [])
  | .undefined =>
      (state.moveTo thread (.undefined item), [])
  | .inserted queue evicted undelivered wasEmpty =>
      ({ state.moveTo thread (afterInsert item undelivered wasEmpty) with
          queue := queue },
        evicted.toList.map .evicted ++
          [.inserted item, .decided item undelivered])

/-- Carry out the outcome of a critical section of `drain`. -/
def drained
    (state : State Thread T)
    (thread : Thread)
    (out : List (Item Thread T)) :
    BoundedQueue.DrainOutcome (Item Thread T) →
      State Thread T × List (Obs Thread T)
  | .blocked =>
      ({ state.moveTo thread (.drainBlocking out) with
          mutex := some thread }, [])
  | .exhausted =>
      (state.moveTo thread (.drainReturning false out), [])
  | .swapped queue batch =>
      ({ state.moveTo thread (.drainNotifying batch) with
          queue := queue }, [.drained batch])

/-- The next atomic step of a thread; a critical section needs the mutex. -/
def advance?
    (state : State Thread T)
    (thread : Thread) :
    Option (State Thread T × List (Obs Thread T)) :=
  match state.phase thread with
  | .push item policy =>
      if state.mutex = none then
        some (state.pushed thread item (state.queue.push item policy))
      else
        none
  | .pushBlocking item =>
      some
        ({ state.moveTo thread (.pushWaiting item) with
            mutex := none
            notFull := state.notFull.sleep thread }, [])
  | .pushWaiting item =>
      if thread ∉ state.notFull.waiters ∧ state.mutex = none then
        some (state.pushed thread item (state.queue.awaitNotFull item))
      else
        none
  | .drain out =>
      if state.mutex = none then
        some (state.drained thread out (state.queue.drain out))
      else
        none
  | .drainBlocking out =>
      some
        ({ state.moveTo thread (.drainWaiting out) with
            mutex := none
            notEmpty := state.notEmpty.sleep thread }, [])
  | .drainWaiting out =>
      if thread ∉ state.notEmpty.waiters ∧ state.mutex = none then
        some (state.drained thread out (state.queue.drain out))
      else
        none
  | .drainNotifying out =>
      some
        ({ state.moveTo thread (.drainReturning true out) with
            notFull := state.notFull.notifyAll }, [])
  | .stop =>
      if state.mutex = none then
        some
          ({ state.moveTo thread .stopNotifyingEmpty with
              queue := state.queue.stop }, [])
      else
        none
  | .stopNotifyingEmpty =>
      some
        ({ state.moveTo thread .stopNotifyingFull with
            notEmpty := state.notEmpty.notifyAll }, [])
  | .stopNotifyingFull =>
      some
        ({ state.moveTo thread .stopReturning with
            notFull := state.notFull.notifyAll }, [])
  | .empty =>
      if state.mutex = none then
        some (state.moveTo thread (.emptyReturning state.queue.empty), [])
      else
        none
  | _ =>
      none

/-- `not_empty_.notify_one` by the thread that owes it. -/
def notifyOne?
    (state : State Thread T)
    (thread chosen : Thread) :
    Option (State Thread T × List (Obs Thread T)) :=
  match state.phase thread with
  | .pushNotifying item undelivered =>
      (state.notEmpty.notifyOne? chosen).map fun notEmpty =>
        ({ state.moveTo thread (.pushReturning item undelivered) with
            notEmpty := notEmpty }, [])
  | _ =>
      none

/-- A spurious wakeup on either condition variable. -/
def wake?
    (state : State Thread T)
    (thread : Thread) :
    Option (State Thread T × List (Obs Thread T)) :=
  match state.notFull.wake? thread, state.notEmpty.wake? thread with
  | some notFull, _ =>
      some ({ state with notFull := notFull }, [])
  | none, some notEmpty =>
      some ({ state with notEmpty := notEmpty }, [])
  | none, none =>
      none

/-- Return from a member function. -/
def ret?
    (state : State Thread T)
    (thread : Thread) :
    Option (State Thread T × List (Obs Thread T)) :=
  match state.phase thread with
  | .pushReturning item undelivered =>
      some (state.moveTo thread .idle, [.returned item undelivered])
  | .drainReturning _ _ | .stopReturning | .emptyReturning _ =>
      some (state.moveTo thread .idle, [])
  | _ =>
      none

/-- One step of the queue and its threads. -/
def step?
    (state : State Thread T) :
    Event Thread T → Option (State Thread T × List (Obs Thread T))
  | .call thread operation =>
      match state.phase thread with
      | .idle =>
          some (state.begin thread operation, [])
      | _ =>
          none
  | .advance thread =>
      state.advance? thread
  | .notifyOne thread chosen =>
      state.notifyOne? thread chosen
  | .wake thread =>
      state.wake? thread
  | .ret thread =>
      state.ret? thread

end State

/-- The queue of a given capacity as a machine. -/
def machine
    (Thread T : Type)
    [DecidableEq Thread]
    (capacity : Nat) :
    Machine (State Thread T) (Event Thread T) (Obs Thread T) where
  init := .initial capacity
  step? := State.step?

/-- The deque that a `drain()` call passes is empty. -/
def EmptyOut
    {Thread T : Type} :
    State Thread T → Event Thread T → Prop
  | _, .call _ (.drain out) => out = []
  | _, _ => True

instance decidableEmptyOut
    {Thread T : Type}
    (state : State Thread T) :
    ∀ event, Decidable (EmptyOut state event)
  | .call _ (.drain out) =>
      decidable_of_iff (out.isEmpty = true) (by simp [EmptyOut])
  | .call _ (.push _ _) | .call _ .stop | .call _ .empty
  | .advance _ | .notifyOne _ _ | .wake _ | .ret _ =>
      .isTrue trivial

end ConcLogger.Queue
