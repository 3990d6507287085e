import ConcLogger.Queue.Accounting

namespace ConcLogger

open Concurrency

/-!
# A `push` that ends by an exception

`data_.push_back` may throw where it would have inserted.  It leaves the deque
as it found it, `lk` releases `mutex_` on the way out, and the item is lost
with the frame of `push`.  Whatever `pop_front` took out before is not put
back.
-/

/--
The queue that a throwing `push_back` leaves behind, with the entry that was
evicted before; there is none where the section would not have inserted.
-/
def BoundedQueue.PushOutcome.thrown?
    {T : Type} :
    BoundedQueue.PushOutcome T → Option (BoundedQueue T × Option T)
  | .inserted queue evicted _ _ =>
      some ({ queue with data := queue.data.dropLast }, evicted)
  | _ => none

namespace Queue

variable
  {Thread T : Type}
  [DecidableEq Thread]

/-- Carry out a critical section of `push` whose `push_back` throws. -/
def State.thrown
    (state : State Thread T)
    (thread : Thread)
    (outcome : BoundedQueue.PushOutcome (Item Thread T)) :
    Option (State Thread T × Option (Item Thread T)) :=
  outcome.thrown?.map fun result =>
    ({ state.moveTo thread .idle with queue := result.1 }, result.2)

/-- The next critical section of a `push` throws; the victim is shown. -/
def State.throw?
    (state : State Thread T)
    (thread : Thread) :
    Option (State Thread T × Option (Item Thread T)) :=
  match state.phase thread with
  | .push item policy =>
      if state.mutex = none then
        state.thrown thread (state.queue.push item policy)
      else
        none
  | .pushWaiting item =>
      if thread ∉ state.notFull.waiters ∧ state.mutex = none then
        state.thrown thread (state.queue.awaitNotFull item)
      else
        none
  | _ =>
      none

/-! ## What an undecided `push` has done -/

/--
A thread with an undecided item has just called `push`, or its step was the
false predicate or the sleep of a `push` and has left the queue alone.
-/
theorem Step.queue_eq_of_undecided
    {state next : State Thread T}
    {event : Event Thread T}
    {emitted : List (Obs Thread T)}
    (step : Step state event emitted next)
    {item : Item Thread T}
    (undecided :
      (next.phase event.thread).undecided? = some item) :
    next.queue = state.queue ∧
      ((state.phase event.thread).undecided? = some item ∨
        ∃ value policy,
          event = .call event.thread (.push value policy)) := by
  cases step with
  | call thread operation =>
      cases operation with
      | push value policy =>
          exact ⟨rfl, Or.inr ⟨value, policy, rfl⟩⟩
      | drain | stop | empty =>
          simp [State.begin, Event.thread, Phase.undecided?] at undecided
  | block thread pending deciding =>
      refine ⟨rfl, Or.inl ?_⟩
      rw [Event.thread, deciding.undecided]
      simpa [Event.thread, Phase.undecided?] using undecided
  | sleepNotFull thread pending blocking =>
      refine ⟨rfl, Or.inl ?_⟩
      simpa [Event.thread, blocking, Phase.undecided?] using undecided
  | wakeNotFull | wakeNotEmpty =>
      exact ⟨rfl, Or.inl undecided⟩
  | insert thread pending | evict thread pending =>
      simp only [State.insert, State.phase_moveTo, Event.thread,
        Function.update_self, State.afterInsert] at undecided
      split at undecided <;> cases undecided
  | _ =>
      simp [Event.thread, Phase.undecided?] at undecided

/-- An idle thread changes the queue by no step of its own. -/
theorem Step.queue_eq_of_idle
    {state next : State Thread T}
    {event : Event Thread T}
    {emitted : List (Obs Thread T)}
    (step : Step state event emitted next)
    (idle : state.phase event.thread = .idle) :
    next.queue = state.queue := by
  cases step with
  | call thread operation =>
      cases operation <;> rfl
  | insert thread item deciding =>
      have inside := deciding.inside_push
      simp [show state.phase thread = .idle from idle,
        Phase.member?] at inside
  | evict thread item oldest rest deciding =>
      simp [Event.thread, deciding] at idle
  | swap thread out draining =>
      have inside := draining.inside_drain
      simp [show state.phase thread = .idle from idle,
        Phase.member?] at inside
  | stop thread stopping =>
      simp [Event.thread, stopping] at idle
  | _ =>
      rfl

/-! ## What a throwing `push` does -/

/-- The guards and the effect of a `push` that throws. -/
inductive Throw
    (state : State Thread T)
    (thread : Thread) :
    Option (Item Thread T) → State Thread T → Prop where
  | insert
      (item : Item Thread T)
      (deciding : state.Deciding thread item)
      (free : state.mutex = none)
      (room : state.queue.data.length < state.queue.capacity) :
      Throw state thread none (state.moveTo thread .idle)
  | evict
      (item oldest : Item Thread T)
      (rest : List (Item Thread T))
      (deciding : state.phase thread = .push item .dropOldest)
      (free : state.mutex = none)
      (contents : state.queue.data = oldest :: rest)
      (full : state.queue.capacity ≤ state.queue.data.length) :
      Throw state thread (some oldest)
        { state.moveTo thread .idle with
          queue := { state.queue with data := rest } }

namespace Throw

variable
  {state next : State Thread T}
  {thread : Thread}
  {victim : Option (Item Thread T)}

omit [DecidableEq Thread] in
/-- A `push_back` that throws leaves the deque as it was before it. -/
private theorem thrown?_pushBack
    (queue : BoundedQueue (Item Thread T))
    (item : Item Thread T)
    (evicted : Option (Item Thread T))
    (undelivered : Nat) :
    (queue.pushBack item evicted undelivered).thrown? =
      some (queue, evicted) := by
  simp [BoundedQueue.pushBack, BoundedQueue.PushOutcome.thrown?]

/-- A throwing section with room only takes the thread out of `push`. -/
private theorem of_thrown_pushBack
    {item : Item Thread T}
    (deciding : state.Deciding thread item)
    (free : state.mutex = none)
    (room : state.queue.data.length < state.queue.capacity)
    (taken :
      state.thrown thread (state.queue.pushBack item none 0) =
        some (next, victim)) :
    Throw state thread victim next := by
  simp only [State.thrown, thrown?_pushBack, Option.map_some,
    Option.some.injEq] at taken
  cases taken
  exact .insert item deciding free room

/-- A `push` throws in one of the two listed ways. -/
theorem of_throw?
    (taken : state.throw? thread = some (next, victim)) :
    Throw state thread victim next := by
  unfold State.throw? at taken
  cases phase : state.phase thread with
  | push item policy =>
      simp only [phase, Option.ite_none_right_eq_some] at taken
      obtain ⟨free, taken⟩ := taken
      rcases state.queue.push_cases item policy with
        ⟨shape, _⟩ | ⟨shape, _⟩ | ⟨shape, _⟩ |
        ⟨oldest, rest, shape, rfl, contents, full⟩ | ⟨shape, room⟩
      · rw [shape] at taken
        cases taken
      · rw [shape] at taken
        cases taken
      · rw [shape] at taken
        cases taken
      · simp only [shape, State.thrown, thrown?_pushBack,
          Option.map_some, Option.some.injEq] at taken
        cases taken
        exact .evict item oldest rest phase free contents full
      · rw [shape] at taken
        exact of_thrown_pushBack (Or.inl ⟨policy, phase⟩) free room
          taken
  | pushWaiting item =>
      simp only [phase, Option.ite_none_right_eq_some] at taken
      obtain ⟨⟨awake, free⟩, taken⟩ := taken
      rcases state.queue.awaitNotFull_cases item with
        ⟨shape, _⟩ | ⟨shape, _⟩ | ⟨shape, room, _⟩
      · rw [shape] at taken
        cases taken
      · rw [shape] at taken
        cases taken
      · rw [shape] at taken
        exact of_thrown_pushBack (Or.inr ⟨phase, awake⟩) free room
          taken
  | _ =>
      simp [phase] at taken

/-- The thread that throws was undecided and is outside the queue afterwards. -/
theorem phase_eq
    (thrown : Throw state thread victim next) :
    (∃ item, (state.phase thread).undecided? = some item) ∧
      (state.phase thread).weight = 1 ∧
      next.phase = Function.update state.phase thread .idle := by
  cases thrown with
  | insert item deciding =>
      rcases deciding with ⟨policy, phase⟩ | ⟨phase, _⟩ <;>
        simp [phase, Phase.undecided?, Phase.weight]
  | evict item oldest rest phase =>
      simp [phase, Phase.undecided?, Phase.weight]

/-- The victim is what the deque has lost. -/
theorem data_eq
    (thrown : Throw state thread victim next) :
    state.queue.data = victim.toList ++ next.queue.data := by
  cases thrown with
  | insert =>
      rfl
  | evict item oldest rest phase free contents =>
      exact contents

/-- A failing push takes a victim only from a full deque, under `DROP_OLDEST`. -/
theorem victim_cases
    (thrown : Throw state thread victim next) :
    (victim = none ∧
        state.queue.data.length < state.queue.capacity) ∨
      ∃ item oldest,
        victim = some oldest ∧
          state.phase thread = .push item .dropOldest ∧
          state.queue.capacity ≤ state.queue.data.length := by
  cases thrown with
  | insert item deciding free room =>
      exact Or.inl ⟨rfl, room⟩
  | evict item oldest rest phase free contents full =>
      exact Or.inr ⟨item, oldest, rfl, phase, full⟩

/-- The capacity never changes. -/
theorem capacity_eq
    (thrown : Throw state thread victim next) :
    next.queue.capacity = state.queue.capacity := by
  cases thrown <;> rfl

/-- What holds of every phase still does when a thread has become idle. -/
private theorem forall_phase
    (holds : Phase Thread T → Prop)
    (thrown : Throw state thread victim next)
    (before : ∀ other, holds (state.phase other))
    (idle : holds .idle) :
    ∀ other, holds (next.phase other) := by
  rw [thrown.phase_eq.2.2]
  exact forall_update (fun _ phase => holds phase)
    (fun other _ => before other) idle

/-- A failing push keeps the deques of waiting `drain()` callers empty. -/
theorem blank
    (thrown : Throw state thread victim next)
    (blank : BlankOuts state) :
    BlankOuts next :=
  thrown.forall_phase _ blank trivial

/-- A failing push keeps the bounds. -/
theorem bounded
    (thrown : Throw state thread victim next)
    (bounded : Bounded state) :
    Bounded next where
  data := by
    have lost := congrArg List.length thrown.data_eq
    have within := bounded.data
    rw [List.length_append] at lost
    rw [thrown.capacity_eq]
    omega
  phases := by
    rw [thrown.capacity_eq]
    exact thrown.forall_phase _ bounded.phases trivial

/-- A failing push is not undefined. -/
theorem defined
    (thrown : Throw state thread victim next)
    (defined : Defined state) :
    Defined next := by
  intro other
  exact thrown.forall_phase
    (fun phase => ∀ item, phase ≠ .undefined item)
    defined (by simp) other

/-- A failing push takes its own item and its victim off the load. -/
theorem load_eq
    [Fintype Thread]
    (thrown : Throw state thread victim next) :
    load next + 1 + victim.toList.length = load state := by
  have moved :=
    sum_change
      (fun other => (state.phase other).weight)
      (fun other => (next.phase other).weight)
      thread
      (fun other different => by
        simp [thrown.phase_eq.2.2, different])
  have idle : (next.phase thread).weight = 0 := by
    simp [thrown.phase_eq.2.2, Phase.weight]
  have lost := congrArg List.length thrown.data_eq
  rw [thrown.phase_eq.2.1, idle] at moved
  rw [List.length_append] at lost
  unfold load
  omega

end Throw

end Queue

end ConcLogger
