import ConcLogger.Concurrency.Linearizable
import ConcLogger.Queue.Overflow
import ConcLogger.Queue.Wakeups

namespace ConcLogger.Queue

open Concurrency

/-!
# The bounded queue is linearizable

What the queue is for, said of one thread at a time: a FIFO of at most
`capacity` items that refuses, evicts or waits when it is full.  Every history
of calls and answers that any number of threads can have with
`BoundedQueue<T>` is one of this object, with each call taking effect at one
moment between its invocation and its answer.
-/

/-- A call without the thread's own copy of the item. -/
inductive Call (T : Type) where
  | push (value : T) (policy : OverflowPolicy)
  | drain
  | stop
  | empty
  deriving Repr, DecidableEq

/-- What a call is answered; `drain` also fills the caller's deque. -/
inductive Answer (T : Type) where
  | pushed (undelivered : Nat)
  | drained (result : Bool) (out : List T)
  | stopped
  | emptied (result : Bool)
  deriving Repr, DecidableEq

/-- The queue as its users think of it, oldest item first. -/
structure Contents (T : Type) where
  items : List T
  stopped : Bool
  deriving Repr, DecidableEq

/-- What one call does to a bounded FIFO, and what it is answered. -/
inductive Effect
    {T : Type}
    (capacity : Nat)
    (contents : Contents T) :
    Call T → Contents T → Answer T → Prop where
  | insert
      (value : T)
      (policy : OverflowPolicy)
      (room : contents.items.length < capacity) :
      Effect capacity contents (.push value policy)
        { contents with items := contents.items ++ [value] } (.pushed 0)
  | refuse
      (value : T)
      (full : capacity ≤ contents.items.length) :
      Effect capacity contents (.push value .dropNewest) contents
        (.pushed 1)
  | evict
      (value oldest : T)
      (rest : List T)
      (front : contents.items = oldest :: rest)
      (full : capacity ≤ contents.items.length) :
      Effect capacity contents (.push value .dropOldest)
        { contents with items := rest ++ [value] } (.pushed 1)
  /-- A push that has had to wait gives up on a stopped queue, even with room. -/
  | abandon
      (value : T)
      (stopped : contents.stopped = true) :
      Effect capacity contents (.push value .block) contents (.pushed 1)
  | drain
      (something : contents.items ≠ []) :
      Effect capacity contents .drain { contents with items := [] }
        (.drained true contents.items)
  | exhaust
      (nothing : contents.items = [])
      (stopped : contents.stopped = true) :
      Effect capacity contents .drain contents (.drained false [])
  | stop :
      Effect capacity contents .stop { contents with stopped := true }
        .stopped
  | empty :
      Effect capacity contents .empty contents
        (.emptied contents.items.isEmpty)

/-- A bounded FIFO for one thread at a time. -/
def fifo (T : Type) (capacity : Nat) :
    Object (Contents T) (Call T) (Answer T) where
  init := ⟨[], false⟩
  Effect := Effect capacity

section Views

variable {Thread T : Type}

/-- The call that a member function call is. -/
def Operation.toCall : Operation Thread T → Call T
  | .push value policy => .push value policy
  | .drain _ => .drain
  | .stop => .stop
  | .empty => .empty

/-- A thread's present call, or the answer that it will be given. -/
def Phase.stage : Phase Thread T → Stage (Call T) (Answer T)
  | .idle => .idle
  | .push item policy => .called (.push item.value policy)
  -- Only a push that blocks gets this far.
  | .pushBlocking item | .pushWaiting item =>
      .called (.push item.value .block)
  | .pushNotifying _ undelivered | .pushReturning _ undelivered =>
      .answered (.pushed undelivered)
  | .undefined item => .called (.push item.value .dropOldest)
  | .drain _ | .drainBlocking _ | .drainWaiting _ => .called .drain
  | .drainNotifying out => .answered (.drained true (out.map Item.value))
  | .drainReturning result out =>
      .answered (.drained result (out.map Item.value))
  | .stop => .called .stop
  | .stopNotifyingEmpty | .stopNotifyingFull | .stopReturning =>
      .answered .stopped
  | .empty => .called .empty
  | .emptyReturning result => .answered (.emptied result)

/-- Where every thread is with its call. -/
def State.stage
    (state : State Thread T)
    (thread : Thread) :
    Stage (Call T) (Answer T) :=
  (state.phase thread).stage

/-- The queue without the stamps of its items. -/
def State.contents (state : State Thread T) : Contents T where
  items := state.queue.data.map Item.value
  stopped := state.queue.stopped

/-- The invocation, the answer or the effect that a step is. -/
def marks
    (state : State Thread T)
    (event : Event Thread T)
    (next : State Thread T) :
    List (Thread × Mark (Call T) (Answer T)) :=
  match event with
  | .call thread operation =>
      [(thread, .act (.invoke operation.toCall))]
  | .ret thread =>
      match state.stage thread with
      | .answered answer => [(thread, .act (.respond answer))]
      | _ => []
  | .advance thread | .notifyOne thread _ =>
      match state.stage thread, next.stage thread with
      | .called call, .answered answer => [(thread, .commit call answer)]
      | _, _ => []
  | .wake _ => []

end Views

/-- The queue, watched for its calls, answers and effects. -/
def marked
    (Thread T : Type)
    [DecidableEq Thread]
    (capacity : Nat) :
    Machine (State Thread T) (Event Thread T)
      (Thread × Mark (Call T) (Answer T)) :=
  (machine Thread T capacity).watch marks

section Moves

variable
  {Thread T : Type}
  [DecidableEq Thread]
  {state next : State Thread T}
  {emitted : List (Obs Thread T)}
  {event : Event Thread T}
  {thread : Thread}
  {item : Item Thread T}

/-- A thread that moves changes its own stage only. -/
@[simp] theorem State.stage_moveTo
    (phase : Phase Thread T) :
    (state.moveTo thread phase).stage =
      Function.update state.stage thread phase.stage := by
  funext query
  by_cases same : query = thread
  · subst same
    simp [State.stage]
  · simp [State.stage, same]

omit [DecidableEq Thread] in
/-- After an insertion the answer is fixed. -/
@[simp] theorem Phase.stage_afterInsert
    (undelivered : Nat)
    (wasEmpty : Bool) :
    (State.afterInsert item undelivered wasEmpty).stage =
      .answered (.pushed undelivered) := by
  cases wasEmpty <;> rfl

variable {capacity : Nat}

/-- A thread that goes on with the same call takes no step of the FIFO. -/
private theorem move_of_same
    (own : event = .advance thread ∨ ∃ chosen, event = .notifyOne thread chosen)
    {phase : Phase Thread T}
    (contents : next.contents = state.contents)
    (moved : next.stage = Function.update state.stage thread phase.stage)
    (same : phase.stage = state.stage thread) :
    (fifo T capacity).Move state.contents state.stage
      (marks state event next) next.contents next.stage := by
  rw [same, Function.update_eq_self] at moved
  have silent : marks state event next = [] := by
    rcases own with rfl | ⟨chosen, rfl⟩ <;>
      simp only [marks, moved] <;>
      cases state.stage thread <;> rfl
  rw [silent, contents, moved]
  exact .silent

/-- A thread whose answer becomes fixed takes a step of the FIFO. -/
private theorem move_of_commit
    {call : Call T}
    {answer : Answer T}
    (pending : state.stage thread = .called call)
    (effect : Effect capacity state.contents call next.contents answer)
    (moved :
      next.stage = Function.update state.stage thread (.answered answer)) :
    (fifo T capacity).Move state.contents state.stage
      (marks state (.advance thread) next) next.contents next.stage := by
  have marked :
      marks state (.advance thread) next =
        [(thread, .commit call answer)] := by
    simp [marks, pending, moved]
  rw [marked, moved]
  exact .commit thread call answer next.contents pending effect

omit [DecidableEq Thread] in
/-- With room, an insertion is one of the FIFO. -/
private theorem inserts
    (item : Item Thread T)
    (policy : OverflowPolicy)
    (room : state.queue.data.length < state.queue.capacity) :
    Effect state.queue.capacity state.contents (.push item.value policy)
      ⟨(state.queue.data ++ [item]).map Item.value, state.queue.stopped⟩
      (.pushed 0) := by
  rw [List.map_append]
  exact .insert item.value policy (by simpa [State.contents] using room)

/-- A push in its first critical section does what the FIFO does. -/
private theorem move_of_push
    {policy : OverflowPolicy}
    (phase : state.phase thread = .push item policy)
    (taken : state.step? (.advance thread) = some (next, emitted)) :
    (fifo T state.queue.capacity).Move state.contents state.stage
      (marks state (.advance thread) next) next.contents next.stage := by
  have pending :
      state.stage thread = .called (.push item.value policy) :=
    congrArg Phase.stage phase
  have pushed := State.pushed_of_push phase taken
  rcases state.queue.push_cases item policy with
    ⟨shape, full, reason⟩ | ⟨shape, rfl, full, running⟩ |
    ⟨shape, rfl, noCapacity, _⟩ |
    ⟨oldest, rest, shape, rfl, contents, full⟩ | ⟨shape, room⟩
  · rw [shape] at pushed
    cases pushed
    refine move_of_commit pending ?_ (State.stage_moveTo _)
    rcases reason with rfl | ⟨rfl, stopped⟩
    · exact .refuse item.value (by simpa [State.contents] using full)
    · exact .abandon item.value stopped
  · rw [shape] at pushed
    cases pushed
    exact move_of_same (Or.inl rfl) rfl (State.stage_moveTo _)
      pending.symm
  · rw [shape] at pushed
    cases pushed
    exact move_of_same (Or.inl rfl) rfl (State.stage_moveTo _)
      pending.symm
  · rw [shape] at pushed
    cases pushed
    have evicts :
        Effect state.queue.capacity state.contents
          (.push item.value .dropOldest)
          { state.contents with
            items := rest.map Item.value ++ [item.value] } (.pushed 1) :=
      .evict item.value oldest.value (rest.map Item.value)
        (by simp [State.contents, contents])
        (by simpa [State.contents] using full)
    exact move_of_commit pending
      (by simpa [State.contents] using evicts)
      ((State.stage_moveTo _).trans (by rw [Phase.stage_afterInsert]))
  · rw [shape] at pushed
    cases pushed
    exact move_of_commit pending (inserts item policy room)
      ((State.stage_moveTo _).trans (by rw [Phase.stage_afterInsert]))

/-- A push that has waited does what the FIFO does. -/
private theorem move_of_pushWaiting
    (phase : state.phase thread = .pushWaiting item)
    (taken : state.step? (.advance thread) = some (next, emitted)) :
    (fifo T state.queue.capacity).Move state.contents state.stage
      (marks state (.advance thread) next) next.contents next.stage := by
  have pending : state.stage thread = .called (.push item.value .block) :=
    congrArg Phase.stage phase
  have pushed := State.pushed_of_pushWaiting phase taken
  rcases state.queue.awaitNotFull_cases item with
    ⟨shape, stopped⟩ | ⟨shape, full, running⟩ | ⟨shape, room, running⟩
  · rw [shape] at pushed
    cases pushed
    exact move_of_commit pending (.abandon item.value stopped)
      (State.stage_moveTo _)
  · rw [shape] at pushed
    cases pushed
    exact move_of_same (Or.inl rfl) rfl (State.stage_moveTo _)
      pending.symm
  · rw [shape] at pushed
    cases pushed
    exact move_of_commit pending (inserts item .block room)
      ((State.stage_moveTo _).trans (by rw [Phase.stage_afterInsert]))

/-- A critical section of a push does what the FIFO does. -/
private theorem move_of_deciding
    (deciding : state.Deciding thread item)
    (taken : state.step? (.advance thread) = some (next, emitted)) :
    (fifo T state.queue.capacity).Move state.contents state.stage
      (marks state (.advance thread) next) next.contents next.stage := by
  rcases deciding with ⟨policy, phase⟩ | ⟨phase, _⟩
  · exact move_of_push phase taken
  · exact move_of_pushWaiting phase taken

omit [DecidableEq Thread] in
/-- A drain that has not had its critical section has not taken effect. -/
private theorem stage_of_draining
    {out : List (Item Thread T)}
    (draining : state.Draining thread out) :
    state.stage thread = .called .drain := by
  rcases draining with phase | ⟨phase, _⟩ <;>
    simp [State.stage, phase, Phase.stage]

/-- A thread that returns gives its answer. -/
private theorem move_of_return
    {answer : Answer T}
    (fixed : state.stage thread = .answered answer) :
    (fifo T capacity).Move state.contents state.stage
      (marks state (.ret thread) (state.moveTo thread .idle))
      (state.moveTo thread .idle).contents
      (state.moveTo thread .idle).stage := by
  have marked :
      marks state (.ret thread) (state.moveTo thread .idle) =
        [(thread, .act (.respond answer))] := by
    simp [marks, fixed]
  rw [marked, State.stage_moveTo]
  exact .respond thread answer fixed

/-- Every step of the queue is, for its threads, a step of the FIFO. -/
theorem move_of_step
    (blank : BlankOuts state)
    (taken : state.step? event = some (next, emitted)) :
    (fifo T state.queue.capacity).Move state.contents state.stage
      (marks state event next) next.contents next.stage := by
  cases Step.of_step? taken with
  | call thread operation idle =>
      have invoked :
          (state.begin thread operation).stage =
              Function.update state.stage thread
                (.called operation.toCall) ∧
            (state.begin thread operation).contents =
              state.contents := by
        cases operation <;>
          exact ⟨State.stage_moveTo _, rfl⟩
      rw [invoked.1, invoked.2]
      exact .invoke thread operation.toCall
        (congrArg Phase.stage idle)
  | refuse thread item deciding | block thread item deciding
  | undefined thread item deciding | insert thread item deciding =>
      exact move_of_deciding deciding taken
  | evict thread item oldest rest phase =>
      exact move_of_push phase taken
  | sleepNotFull thread item phase | drainNotify thread out phase
  | stopNotifyEmpty thread phase | stopNotifyFull thread phase
  | sleepNotEmpty thread out phase =>
      exact move_of_same (Or.inl rfl) rfl (State.stage_moveTo _)
        (congrArg Phase.stage phase).symm
  | notifyOne thread chosen item undelivered notEmpty phase =>
      exact move_of_same (Or.inr ⟨chosen, rfl⟩) rfl (State.stage_moveTo _)
        (congrArg Phase.stage phase).symm
  | drainBlock thread out draining =>
      exact move_of_same (Or.inl rfl) rfl (State.stage_moveTo _)
        (stage_of_draining draining).symm
  | exhaust thread out draining free nothing stopped =>
      have isNil := blank.out_eq_nil draining
      subst isNil
      exact move_of_commit (stage_of_draining draining)
        (.exhaust (by simp [State.contents, nothing]) stopped)
        (State.stage_moveTo _)
  | swap thread out draining free something =>
      have isNil := blank.out_eq_nil draining
      subst isNil
      exact move_of_commit (stage_of_draining draining)
        (.drain (by simpa [State.contents] using something))
        (State.stage_moveTo _)
  | stop thread phase =>
      exact move_of_commit
        (congrArg Phase.stage phase) .stop
        (State.stage_moveTo _)
  | empty thread phase =>
      have sees :
          state.queue.empty = state.contents.items.isEmpty := by
        simp [BoundedQueue.empty, State.contents]
      rw [sees]
      exact move_of_commit (congrArg Phase.stage phase)
        .empty (State.stage_moveTo _)
  | wakeNotFull | wakeNotEmpty =>
      exact .silent
  | returnPush thread item undelivered phase =>
      exact move_of_return (congrArg Phase.stage phase)
  | returnOther thread returning =>
      rcases returning with ⟨result, out, phase⟩ | phase | ⟨result, phase⟩ <;>
        exact move_of_return (congrArg Phase.stage phase)

end Moves

/--
Whatever the threads do, as long as each `drain` is passed an empty deque, some
order of their calls explains all answers: the calls of each thread come in its
own order, none comes before a call that had been answered when it was made,
and a bounded FIFO used by one thread at a time gives the same answers.  After
these operations it holds what the deque holds.  A push that pops an empty
deque is a call that is never answered.
-/
theorem queue_is_linearizable
    {Thread T : Type}
    [DecidableEq Thread]
    {capacity : Nat}
    {observed : List (Thread × Mark (Call T) (Answer T))}
    {state : State Thread T}
    (reached : (marked Thread T capacity).ReachesBy EmptyOut observed state) :
    ∃ order,
      Linearization (fifo T capacity) (visible observed) order ∧
        (fifo T capacity).Runs (order.map Prod.snd) state.contents := by
  have atomic :
      (fifo T capacity).Atomic observed state.contents state.stage := by
    refine reached.atomic (fifo T capacity) State.contents State.stage
      rfl rfl ?_
    intro earlier seen before after event reachedBefore _ taken
    obtain ⟨rfl, emitted, stepped⟩ := Machine.watch_step? taken
    obtain ⟨record, inQueue⟩ := reachedBefore.of_watch
    have moves := move_of_step (.of_reaches inQueue) stepped
    rwa [capacity_of_reaches inQueue] at moves
  exact ⟨commits observed, atomic.linearization, atomic.runs⟩

/--
Capacity one: a push waits for room while another thread drains, and is
answered before it.
-/
theorem queue_is_linearizable_while_a_push_waits :
    ∃ order : List (Fin 2 × Call Nat × Answer Nat),
      Linearization (fifo Nat 1)
        [(0, .invoke (.push 5 .block)), (1, .invoke (.push 6 .block)),
          (0, .respond (.pushed 0)), (0, .invoke .drain),
          (1, .respond (.pushed 0)), (0, .respond (.drained true [5]))]
        order := by
  obtain ⟨observed, state, reached, history⟩ :=
    (marked (Fin 2) Nat 1).exists_reachesBy EmptyOut
      [.call 0 (.push 5 .block), .advance 0,
        .call 1 (.push 6 .block), .advance 1, .advance 1,
        .notifyOne 0 0, .ret 0, .call 0 (.drain []), .advance 0,
        .advance 0, .advance 1, .notifyOne 1 0, .ret 1, .ret 0]
      (fun observed _ =>
        visible observed ==
          [(0, .invoke (.push 5 .block)), (1, .invoke (.push 6 .block)),
            (0, .respond (.pushed 0)), (0, .invoke .drain),
            (1, .respond (.pushed 0)),
            (0, .respond (.drained true [5]))])
      (by decide +kernel)
  obtain ⟨order, explains, _⟩ := queue_is_linearizable reached
  rw [eq_of_beq history] at explains
  exact ⟨order, explains⟩

end ConcLogger.Queue
