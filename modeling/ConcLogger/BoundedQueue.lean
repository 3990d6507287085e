import ConcLogger.LogEntry

namespace ConcLogger

/-!
# The critical sections of the bounded queue

`BoundedQueue<T>` from `bounded_queue.hpp`.  Everything that reads or writes
`data_` and `stopped_` happens under `mutex_`, so each member function is cut
at the points where it acquires and releases that mutex.  A definition below
is what one such critical section computes; locking, sleeping and notifying
belong to the threads and are modelled in the module on queue threads.
-/

/-- The members of `BoundedQueue<T>` that `mutex_` guards; front of the deque first. -/
structure BoundedQueue (T : Type) where
  data : List T
  capacity : Nat
  stopped : Bool
  deriving Repr, DecidableEq

namespace BoundedQueue

variable {T : Type}

/-- The constructor; it accepts every capacity. -/
def new (capacity : Nat) : BoundedQueue T where
  data := []
  capacity := capacity
  stopped := false

/-- How a critical section of `push` ends. -/
inductive PushOutcome (T : Type) where
  /-- `return 1` without inserting. -/
  | refused
  /-- The predicate of `not_full_.wait` is false. -/
  | blocked
  /-- `pop_front` on an empty deque, which is undefined behaviour. -/
  | undefined
  /-- The item is in; `undelivered` is returned after the notification. -/
  | inserted
      (queue : BoundedQueue T)
      (evicted : Option T)
      (undelivered : Nat)
      (wasEmpty : Bool)
  deriving Repr, DecidableEq

/-- How a critical section of `drain` ends. -/
inductive DrainOutcome (T : Type) where
  /-- The predicate of `not_empty_.wait` is false. -/
  | blocked
  /-- `return false`: stopped and empty. -/
  | exhausted
  /-- `out.swap(data_)`. -/
  | swapped (queue : BoundedQueue T) (out : List T)
  deriving Repr, DecidableEq

/-- The end of `push`: test for emptiness, `push_back`, remember what to return. -/
def pushBack
    (queue : BoundedQueue T)
    (item : T)
    (evicted : Option T)
    (undelivered : Nat) :
    PushOutcome T :=
  .inserted
    { queue with data := queue.data ++ [item] }
    evicted undelivered queue.data.isEmpty

/-- The predicate of `not_full_.wait`. -/
def hasRoom (queue : BoundedQueue T) : Bool :=
  decide (queue.data.length < queue.capacity) || queue.stopped

/-- `push` from an evaluation of the predicate of `not_full_.wait` onwards. -/
def awaitNotFull (queue : BoundedQueue T) (item : T) : PushOutcome T :=
  if queue.hasRoom then
    if queue.stopped then
      .refused
    else
      queue.pushBack item none 0
  else
    .blocked

/-- `push` from the acquisition of `mutex_` onwards. -/
def push
    (queue : BoundedQueue T)
    (item : T)
    (policy : OverflowPolicy) :
    PushOutcome T :=
  if queue.capacity ≤ queue.data.length then
    match policy with
    | .dropNewest =>
        .refused
    | .dropOldest =>
        match queue.data with
        | [] =>
            .undefined
        | oldest :: rest =>
            pushBack { queue with data := rest } item (some oldest) 1
    | .block =>
        queue.awaitNotFull item
  else
    queue.pushBack item none 0

/-- The predicate of `not_empty_.wait`. -/
def hasWork (queue : BoundedQueue T) : Bool :=
  !queue.data.isEmpty || queue.stopped

/-- `drain(out)` from an evaluation of the predicate of `not_empty_.wait` onwards. -/
def drain (queue : BoundedQueue T) (out : List T) : DrainOutcome T :=
  if queue.hasWork then
    if queue.data.isEmpty then
      .exhausted
    else
      .swapped { queue with data := out } queue.data
  else
    .blocked

/-- The critical section of `stop`. -/
def stop (queue : BoundedQueue T) : BoundedQueue T :=
  { queue with stopped := true }

/-- The critical section of `empty`. -/
def empty (queue : BoundedQueue T) : Bool :=
  queue.data.isEmpty

/-! ## What the critical sections can do -/

/-- Re-evaluating the predicate of `not_full_.wait`, case by case. -/
theorem awaitNotFull_cases
    (queue : BoundedQueue T)
    (item : T) :
    (queue.awaitNotFull item = .refused ∧
        queue.stopped = true) ∨
      (queue.awaitNotFull item = .blocked ∧
        queue.capacity ≤ queue.data.length ∧
        queue.stopped = false) ∨
      (queue.awaitNotFull item = queue.pushBack item none 0 ∧
        queue.data.length < queue.capacity ∧
        queue.stopped = false) := by
  unfold awaitNotFull hasRoom
  cases stopped : queue.stopped
  · by_cases room : queue.data.length < queue.capacity
    · simp [room]
    · simp [room]
      omega
  · simp

/-- The first critical section of `push`, case by case. -/
theorem push_cases
    (queue : BoundedQueue T)
    (item : T)
    (policy : OverflowPolicy) :
    (queue.push item policy = .refused ∧
        queue.capacity ≤ queue.data.length ∧
        (policy = .dropNewest ∨
          policy = .block ∧ queue.stopped = true)) ∨
      (queue.push item policy = .blocked ∧
        policy = .block ∧
        queue.capacity ≤ queue.data.length ∧
        queue.stopped = false) ∨
      (queue.push item policy = .undefined ∧
        policy = .dropOldest ∧
        queue.capacity = 0 ∧
        queue.data = []) ∨
      (∃ oldest rest,
        queue.push item policy =
            pushBack { queue with data := rest } item (some oldest) 1 ∧
          policy = .dropOldest ∧
          queue.data = oldest :: rest ∧
          queue.capacity ≤ queue.data.length) ∨
      (queue.push item policy = queue.pushBack item none 0 ∧
        queue.data.length < queue.capacity) := by
  unfold push
  by_cases full : queue.capacity ≤ queue.data.length
  · cases policy with
    | dropNewest =>
        simp [full]
    | dropOldest =>
        cases contents : queue.data with
        | nil =>
            have noCapacity : queue.capacity = 0 := by
              simpa [contents] using full
            simp [noCapacity]
        | cons oldest rest =>
            have full' : queue.capacity ≤ rest.length + 1 := by
              simpa [contents] using full
            simp [full']
    | block =>
        rcases queue.awaitNotFull_cases item with
          ⟨outcome, stopped⟩ | ⟨outcome, _, running⟩ | ⟨_, room, _⟩
        · simp [full, outcome, stopped]
        · simp [full, outcome, running]
        · omega
  · simp [full]
    omega

/-- A critical section of `drain`, case by case. -/
theorem drain_cases
    (queue : BoundedQueue T)
    (out : List T) :
    (queue.drain out = .blocked ∧
        queue.data = [] ∧
        queue.stopped = false) ∨
      (queue.drain out = .exhausted ∧
        queue.data = [] ∧
        queue.stopped = true) ∨
      (queue.drain out =
          .swapped { queue with data := out } queue.data ∧
        queue.data ≠ []) := by
  unfold drain hasWork
  cases stopped : queue.stopped <;>
    cases contents : queue.data <;>
    simp

end BoundedQueue

end ConcLogger
