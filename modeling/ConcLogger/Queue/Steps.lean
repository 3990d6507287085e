import ConcLogger.Concurrency.Threads
import ConcLogger.Queue.Threads

namespace ConcLogger.Queue

open Concurrency

/-!
# Everything one step of the queue can do

`Step` lists the atomic steps with their guards and their effects.
`Step.of_step?` shows that the executable step function takes no others, so
every invariant below is one case analysis over `Step`.
-/

namespace Phase

variable {Thread T : Type}

/-- The thread found its predicate false and has not fallen asleep yet. -/
def Blocking : Phase Thread T → Prop
  | .pushBlocking _ | .drainBlocking _ => True
  | _ => False

/-- The thread still has to notify `not_empty_`. -/
def OwesNotEmpty : Phase Thread T → Prop
  | .pushNotifying _ _ | .stopNotifyingEmpty => True
  | _ => False

/-- The thread still has to notify `not_full_`. -/
def OwesNotFull : Phase Thread T → Prop
  | .drainNotifying _ | .stopNotifyingEmpty | .stopNotifyingFull => True
  | _ => False

/-- The member function that the thread is inside of. -/
def member? : Phase Thread T → Option Member
  | .idle => none
  | .push _ _ | .pushBlocking _ | .pushWaiting _
  | .pushNotifying _ _ | .pushReturning _ _ | .undefined _ => some .push
  | .drain _ | .drainBlocking _ | .drainWaiting _
  | .drainNotifying _ | .drainReturning _ _ => some .drain
  | .stop | .stopNotifyingEmpty | .stopNotifyingFull
  | .stopReturning => some .stop
  | .empty | .emptyReturning _ => some .empty

/-- Only an idle thread is outside every member function. -/
theorem eq_idle_of_member?
    {phase : Phase Thread T}
    (outside : phase.member? = none) :
    phase = .idle := by
  cases phase <;> simp [member?] at outside ⊢

/-- The item of a `push` that has not had its last critical section. -/
def undecided? : Phase Thread T → Option (Item Thread T)
  | .push item _ | .pushBlocking item | .pushWaiting item => some item
  | _ => none

/-- Only a thread inside `push` has an undecided item. -/
theorem undecided?_eq_none
    {phase : Phase Thread T}
    (outside : phase.member? ≠ some .push) :
    phase.undecided? = none := by
  cases phase <;> simp [member?, undecided?] at outside ⊢

end Phase

namespace Event

variable {Thread T : Type}

/-- The thread that takes the step. -/
def thread : Event Thread T → Thread
  | .call thread _ | .advance thread | .notifyOne thread _
  | .wake thread | .ret thread => thread

/-- The member function that a thread is inside of after the step. -/
def memberAfter
    [DecidableEq Thread]
    (event : Event Thread T)
    (query : Thread)
    (before : Option Member) :
    Option Member :=
  match event with
  | .call thread operation =>
      if query = thread then some operation.member else before
  | .ret thread =>
      if query = thread then none else before
  | .advance _ | .notifyOne _ _ | .wake _ =>
      before

end Event

namespace State

variable {Thread T : Type} [DecidableEq Thread]

section MoveTo

variable
  (state : State Thread T)
  (thread : Thread)
  (phase : Phase Thread T)

@[simp] theorem queue_moveTo :
    (state.moveTo thread phase).queue = state.queue :=
  rfl

@[simp] theorem mutex_moveTo :
    (state.moveTo thread phase).mutex = state.mutex :=
  rfl

@[simp] theorem notFull_moveTo :
    (state.moveTo thread phase).notFull = state.notFull :=
  rfl

@[simp] theorem notEmpty_moveTo :
    (state.moveTo thread phase).notEmpty = state.notEmpty :=
  rfl

@[simp] theorem pushes_moveTo :
    (state.moveTo thread phase).pushes = state.pushes :=
  rfl

@[simp] theorem phase_moveTo :
    (state.moveTo thread phase).phase =
      Function.update state.phase thread phase :=
  rfl

end MoveTo

/-- The thread is about to run a critical section that may decide its item. -/
def Deciding
    (state : State Thread T)
    (thread : Thread)
    (item : Item Thread T) : Prop :=
  (∃ policy, state.phase thread = .push item policy) ∨
    (state.phase thread = .pushWaiting item ∧
      thread ∉ state.notFull.waiters)

/-- The thread is about to evaluate the predicate of `not_empty_.wait`. -/
def Draining
    (state : State Thread T)
    (thread : Thread)
    (out : List (Item Thread T)) : Prop :=
  state.phase thread = .drain out ∨
    (state.phase thread = .drainWaiting out ∧
      thread ∉ state.notEmpty.waiters)

omit [DecidableEq Thread] in
/-- A thread that may decide its item is inside `push`. -/
theorem Deciding.inside_push
    {state : State Thread T}
    {thread : Thread}
    {item : Item Thread T}
    (deciding : state.Deciding thread item) :
    (state.phase thread).member? = some .push := by
  rcases deciding with ⟨policy, phase⟩ | ⟨phase, _⟩ <;>
    simp [phase, Phase.member?]

omit [DecidableEq Thread] in
/-- A thread that evaluates the predicate of `not_empty_.wait` is inside `drain`. -/
theorem Draining.inside_drain
    {state : State Thread T}
    {thread : Thread}
    {out : List (Item Thread T)}
    (draining : state.Draining thread out) :
    (state.phase thread).member? = some .drain := by
  rcases draining with phase | ⟨phase, _⟩ <;>
    simp [phase, Phase.member?]

/-- Put an item at the end of the deque. -/
def insert
    (state : State Thread T)
    (thread : Thread)
    (item : Item Thread T)
    (undelivered : Nat)
    (contents : List (Item Thread T)) :
    State Thread T :=
  { state.moveTo thread
      (afterInsert item undelivered contents.isEmpty) with
    queue := { state.queue with data := contents ++ [item] } }

end State

/-- The atomic steps of the queue, with guards and effects. -/
inductive Step
    {Thread T : Type}
    [DecidableEq Thread]
    (state : State Thread T) :
    Event Thread T → List (Obs Thread T) → State Thread T → Prop where
  | call
      (thread : Thread)
      (operation : Operation Thread T)
      (idle : state.phase thread = .idle) :
      Step state (.call thread operation) []
        (state.begin thread operation)
  | refuse
      (thread : Thread)
      (item : Item Thread T)
      (deciding : state.Deciding thread item)
      (free : state.mutex = none)
      (reason :
        (state.phase thread = .push item .dropNewest ∧
            state.queue.capacity ≤ state.queue.data.length) ∨
          state.queue.stopped = true) :
      Step state (.advance thread)
        [.refused item, .decided item 1]
        (state.moveTo thread (.pushReturning item 1))
  | block
      (thread : Thread)
      (item : Item Thread T)
      (deciding : state.Deciding thread item)
      (free : state.mutex = none)
      (full : state.queue.capacity ≤ state.queue.data.length)
      (running : state.queue.stopped = false) :
      Step state (.advance thread) []
        { state.moveTo thread (.pushBlocking item) with
          mutex := some thread }
  | undefined
      (thread : Thread)
      (item : Item Thread T)
      (deciding : state.Deciding thread item)
      (noCapacity : state.queue.capacity = 0) :
      Step state (.advance thread) []
        (state.moveTo thread (.undefined item))
  | insert
      (thread : Thread)
      (item : Item Thread T)
      (deciding : state.Deciding thread item)
      (free : state.mutex = none)
      (room : state.queue.data.length < state.queue.capacity)
      (running :
        state.phase thread = .pushWaiting item →
        state.queue.stopped = false) :
      Step state (.advance thread)
        [.inserted item, .decided item 0]
        (state.insert thread item 0 state.queue.data)
  | evict
      (thread : Thread)
      (item oldest : Item Thread T)
      (rest : List (Item Thread T))
      (deciding : state.phase thread = .push item .dropOldest)
      (free : state.mutex = none)
      (contents : state.queue.data = oldest :: rest)
      (full : state.queue.capacity ≤ state.queue.data.length) :
      Step state (.advance thread)
        [.evicted oldest, .inserted item, .decided item 1]
        (state.insert thread item 1 rest)
  | sleepNotFull
      (thread : Thread)
      (item : Item Thread T)
      (blocking : state.phase thread = .pushBlocking item) :
      Step state (.advance thread) []
        { state.moveTo thread (.pushWaiting item) with
          mutex := none
          notFull := state.notFull.sleep thread }
  | notifyOne
      (thread chosen : Thread)
      (item : Item Thread T)
      (undelivered : Nat)
      (notEmpty : Condvar Thread)
      (notifying : state.phase thread = .pushNotifying item undelivered)
      (notified : state.notEmpty.notifyOne? chosen = some notEmpty) :
      Step state (.notifyOne thread chosen) []
        { state.moveTo thread (.pushReturning item undelivered) with
          notEmpty := notEmpty }
  | drainBlock
      (thread : Thread)
      (out : List (Item Thread T))
      (draining : state.Draining thread out)
      (free : state.mutex = none)
      (nothing : state.queue.data = [])
      (running : state.queue.stopped = false) :
      Step state (.advance thread) []
        { state.moveTo thread (.drainBlocking out) with
          mutex := some thread }
  | exhaust
      (thread : Thread)
      (out : List (Item Thread T))
      (draining : state.Draining thread out)
      (free : state.mutex = none)
      (nothing : state.queue.data = [])
      (stopped : state.queue.stopped = true) :
      Step state (.advance thread) []
        (state.moveTo thread (.drainReturning false out))
  | swap
      (thread : Thread)
      (out : List (Item Thread T))
      (draining : state.Draining thread out)
      (free : state.mutex = none)
      (something : state.queue.data ≠ []) :
      Step state (.advance thread)
        [.drained state.queue.data]
        { state.moveTo thread (.drainNotifying state.queue.data) with
          queue := { state.queue with data := out } }
  | sleepNotEmpty
      (thread : Thread)
      (out : List (Item Thread T))
      (blocking : state.phase thread = .drainBlocking out) :
      Step state (.advance thread) []
        { state.moveTo thread (.drainWaiting out) with
          mutex := none
          notEmpty := state.notEmpty.sleep thread }
  | drainNotify
      (thread : Thread)
      (out : List (Item Thread T))
      (notifying : state.phase thread = .drainNotifying out) :
      Step state (.advance thread) []
        { state.moveTo thread (.drainReturning true out) with
          notFull := state.notFull.notifyAll }
  | stop
      (thread : Thread)
      (stopping : state.phase thread = .stop)
      (free : state.mutex = none) :
      Step state (.advance thread) []
        { state.moveTo thread .stopNotifyingEmpty with
          queue := state.queue.stop }
  | stopNotifyEmpty
      (thread : Thread)
      (notifying : state.phase thread = .stopNotifyingEmpty) :
      Step state (.advance thread) []
        { state.moveTo thread .stopNotifyingFull with
          notEmpty := state.notEmpty.notifyAll }
  | stopNotifyFull
      (thread : Thread)
      (notifying : state.phase thread = .stopNotifyingFull) :
      Step state (.advance thread) []
        { state.moveTo thread .stopReturning with
          notFull := state.notFull.notifyAll }
  | empty
      (thread : Thread)
      (checking : state.phase thread = .empty)
      (free : state.mutex = none) :
      Step state (.advance thread) []
        (state.moveTo thread (.emptyReturning state.queue.empty))
  | wakeNotFull
      (thread : Thread)
      (asleep : thread ∈ state.notFull.waiters) :
      Step state (.wake thread) []
        { state with notFull := state.notFull.rouse thread }
  | wakeNotEmpty
      (thread : Thread)
      (asleep : thread ∈ state.notEmpty.waiters) :
      Step state (.wake thread) []
        { state with notEmpty := state.notEmpty.rouse thread }
  | returnPush
      (thread : Thread)
      (item : Item Thread T)
      (undelivered : Nat)
      (returning : state.phase thread = .pushReturning item undelivered) :
      Step state (.ret thread) [.returned item undelivered]
        (state.moveTo thread .idle)
  | returnOther
      (thread : Thread)
      (returning :
        (∃ result out,
            state.phase thread = .drainReturning result out) ∨
          state.phase thread = .stopReturning ∨
          ∃ result, state.phase thread = .emptyReturning result) :
      Step state (.ret thread) [] (state.moveTo thread .idle)

namespace Step

variable
  {Thread T : Type}
  [DecidableEq Thread]
  {state next : State Thread T}
  {emitted : List (Obs Thread T)}

/-- Carrying out `push` from a deciding phase is one of the listed steps. -/
private theorem of_pushed
    {thread : Thread}
    {item : Item Thread T}
    (deciding : state.Deciding thread item)
    (free : state.mutex = none)
    (outcome : BoundedQueue.PushOutcome (Item Thread T))
    (computed :
      (∃ policy,
          state.phase thread = .push item policy ∧
            outcome = state.queue.push item policy) ∨
        outcome = state.queue.awaitNotFull item)
    (taken : state.pushed thread item outcome = (next, emitted)) :
    Step state (.advance thread) emitted next := by
  rcases computed with ⟨policy, phase, rfl⟩ | rfl
  · rcases state.queue.push_cases item policy with
      ⟨shape, full, reason⟩ | ⟨shape, _, full, running⟩ |
      ⟨shape, _, noCapacity, _⟩ |
      ⟨oldest, rest, shape, rfl, contents, full⟩ | ⟨shape, room⟩
    · rw [shape] at taken
      cases taken
      refine .refuse thread item deciding free ?_
      rcases reason with rfl | ⟨_, stopped⟩
      · exact Or.inl ⟨phase, full⟩
      · exact Or.inr stopped
    · rw [shape] at taken
      cases taken
      exact .block thread item deciding free full running
    · rw [shape] at taken
      cases taken
      exact .undefined thread item deciding noCapacity
    · rw [shape] at taken
      cases taken
      exact .evict thread item oldest rest phase free contents full
    · rw [shape] at taken
      cases taken
      exact .insert thread item deciding free room
        (by simp [phase])
  · rcases state.queue.awaitNotFull_cases item with
      ⟨shape, stopped⟩ | ⟨shape, full, running⟩ |
      ⟨shape, room, running⟩
    · rw [shape] at taken
      cases taken
      exact .refuse thread item deciding free (Or.inr stopped)
    · rw [shape] at taken
      cases taken
      exact .block thread item deciding free full running
    · rw [shape] at taken
      cases taken
      exact .insert thread item deciding free room
        (fun _ => running)

/-- Carrying out `drain` from a draining phase is one of the listed steps. -/
private theorem of_drained
    {thread : Thread}
    {out : List (Item Thread T)}
    (draining : state.Draining thread out)
    (free : state.mutex = none)
    (taken :
      state.drained thread out (state.queue.drain out) =
        (next, emitted)) :
    Step state (.advance thread) emitted next := by
  rcases state.queue.drain_cases out with
    ⟨shape, nothing, running⟩ | ⟨shape, nothing, stopped⟩ |
    ⟨shape, something⟩
  · rw [shape] at taken
    cases taken
    exact .drainBlock thread out draining free nothing running
  · rw [shape] at taken
    cases taken
    exact .exhaust thread out draining free nothing stopped
  · rw [shape] at taken
    cases taken
    exact .swap thread out draining free something

/-- Every atomic step of one thread is listed. -/
private theorem of_advance?
    {thread : Thread}
    (taken : state.advance? thread = some (next, emitted)) :
    Step state (.advance thread) emitted next := by
  unfold State.advance? at taken
  cases phase : state.phase thread with
  | push item policy =>
      simp only [phase, Option.ite_none_right_eq_some,
        Option.some.injEq] at taken
      exact of_pushed (Or.inl ⟨policy, phase⟩) taken.1 _
        (Or.inl ⟨policy, phase, rfl⟩) taken.2
  | pushBlocking item =>
      simp only [phase, Option.some.injEq] at taken
      cases taken
      exact .sleepNotFull thread item phase
  | pushWaiting item =>
      simp only [phase, Option.ite_none_right_eq_some,
        Option.some.injEq] at taken
      exact of_pushed (Or.inr ⟨phase, taken.1.1⟩) taken.1.2 _
        (Or.inr rfl) taken.2
  | drain out =>
      simp only [phase, Option.ite_none_right_eq_some,
        Option.some.injEq] at taken
      exact of_drained (Or.inl phase) taken.1 taken.2
  | drainBlocking out =>
      simp only [phase, Option.some.injEq] at taken
      cases taken
      exact .sleepNotEmpty thread out phase
  | drainWaiting out =>
      simp only [phase, Option.ite_none_right_eq_some,
        Option.some.injEq] at taken
      exact of_drained (Or.inr ⟨phase, taken.1.1⟩) taken.1.2 taken.2
  | drainNotifying out =>
      simp only [phase, Option.some.injEq] at taken
      cases taken
      exact .drainNotify thread out phase
  | stop =>
      simp only [phase, Option.ite_none_right_eq_some,
        Option.some.injEq] at taken
      obtain ⟨free, shape⟩ := taken
      cases shape
      exact .stop thread phase free
  | stopNotifyingEmpty =>
      simp only [phase, Option.some.injEq] at taken
      cases taken
      exact .stopNotifyEmpty thread phase
  | stopNotifyingFull =>
      simp only [phase, Option.some.injEq] at taken
      cases taken
      exact .stopNotifyFull thread phase
  | empty =>
      simp only [phase, Option.ite_none_right_eq_some,
        Option.some.injEq] at taken
      obtain ⟨free, shape⟩ := taken
      cases shape
      exact .empty thread phase free
  | idle | pushNotifying | pushReturning | undefined | drainReturning
  | stopReturning | emptyReturning =>
      simp [phase] at taken

/-- A return is one of the listed steps. -/
private theorem of_ret?
    {thread : Thread}
    (taken : state.ret? thread = some (next, emitted)) :
    Step state (.ret thread) emitted next := by
  unfold State.ret? at taken
  cases phase : state.phase thread with
  | pushReturning item undelivered =>
      simp only [phase, Option.some.injEq] at taken
      cases taken
      exact .returnPush thread item undelivered phase
  | drainReturning result out =>
      simp only [phase, Option.some.injEq] at taken
      cases taken
      exact .returnOther thread (Or.inl ⟨result, out, phase⟩)
  | stopReturning =>
      simp only [phase, Option.some.injEq] at taken
      cases taken
      exact .returnOther thread (Or.inr (Or.inl phase))
  | emptyReturning result =>
      simp only [phase, Option.some.injEq] at taken
      cases taken
      exact .returnOther thread (Or.inr (Or.inr ⟨result, phase⟩))
  | idle | push | pushBlocking | pushWaiting | pushNotifying | undefined
  | drain | drainBlocking | drainWaiting | drainNotifying | stop
  | stopNotifyingEmpty | stopNotifyingFull | empty =>
      simp [phase] at taken

/-- The executable step function takes only the listed steps. -/
theorem of_step?
    {event : Event Thread T}
    (taken : state.step? event = some (next, emitted)) :
    Step state event emitted next := by
  cases event with
  | call thread operation =>
      unfold State.step? at taken
      cases phase : state.phase thread with
      | idle =>
          simp only [phase, Option.some.injEq] at taken
          cases taken
          exact .call thread operation phase
      | _ =>
          simp [phase] at taken
  | advance thread =>
      exact of_advance? taken
  | notifyOne thread chosen =>
      simp only [State.step?, State.notifyOne?] at taken
      cases phase : state.phase thread with
      | pushNotifying item undelivered =>
          simp only [phase, Option.map_eq_some_iff] at taken
          obtain ⟨notEmpty, notified, shape⟩ := taken
          cases shape
          exact .notifyOne thread chosen item undelivered
            notEmpty phase notified
      | _ =>
          simp [phase] at taken
  | wake thread =>
      simp only [State.step?, State.wake?] at taken
      cases full : state.notFull.wake? thread with
      | some notFull =>
          simp only [full, Option.some.injEq] at taken
          cases taken
          obtain ⟨asleep, rfl⟩ := Condvar.wake?_eq_some.mp full
          exact .wakeNotFull thread asleep
      | none =>
          cases vacant : state.notEmpty.wake? thread with
          | some notEmpty =>
              simp only [full, vacant, Option.some.injEq] at taken
              cases taken
              obtain ⟨asleep, rfl⟩ := Condvar.wake?_eq_some.mp vacant
              exact .wakeNotEmpty thread asleep
          | none =>
              simp [full, vacant] at taken
  | ret thread =>
      exact of_ret? taken

/-- A step leaves the phases of all other threads alone. -/
theorem phase_other
    {event : Event Thread T}
    (step : Step state event emitted next)
    {thread : Thread}
    (other : thread ≠ event.thread) :
    next.phase thread = state.phase thread := by
  cases step with
  | call mover operation =>
      cases operation <;> exact Function.update_of_ne other _ _
  | wakeNotFull | wakeNotEmpty =>
      rfl
  | _ =>
      exact Function.update_of_ne other _ _

/-- A spurious wakeup moves nobody. -/
theorem phase_of_wake
    {thread : Thread}
    (step : Step state (.wake thread) emitted next) :
    next.phase = state.phase := by
  cases step <;> rfl

/-- Only calls and returns change the member function a thread is inside of. -/
theorem member?_eq
    {event : Event Thread T}
    (step : Step state event emitted next)
    (thread : Thread) :
    (next.phase thread).member? =
      event.memberAfter thread (state.phase thread).member? := by
  by_cases other : thread ≠ event.thread
  · rw [step.phase_other other]
    cases event <;> simp_all [Event.memberAfter, Event.thread]
  · rw [not_not] at other
    subst other
    cases step with
    | call mover operation =>
        cases operation <;>
          simp [State.begin, Event.thread, Event.memberAfter,
            Phase.member?, Operation.member]
    | refuse mover item deciding | block mover item deciding
    | undefined mover item deciding =>
        rcases deciding with ⟨policy, phase⟩ | ⟨phase, _⟩ <;>
          simp [phase, Event.thread, Event.memberAfter, Phase.member?]
    | insert mover item deciding =>
        rcases deciding with ⟨policy, phase⟩ | ⟨phase, _⟩ <;>
          cases state.queue.data <;>
          simp [phase, State.insert, State.afterInsert, Event.thread,
            Event.memberAfter, Phase.member?]
    | evict mover item oldest rest phase =>
        cases rest <;>
          simp [phase, State.insert, State.afterInsert, Event.thread,
            Event.memberAfter, Phase.member?]
    | drainBlock mover out draining | exhaust mover out draining
    | swap mover out draining =>
        rcases draining with phase | ⟨phase, _⟩ <;>
          simp [phase, Event.thread, Event.memberAfter, Phase.member?]
    | wakeNotFull | wakeNotEmpty =>
        rfl
    | returnPush | returnOther =>
        simp [Event.thread, Event.memberAfter, Phase.member?]
    | _ =>
        simp_all [Event.thread, Event.memberAfter, Phase.member?]

/-- A stopped queue stays stopped. -/
theorem stopped_mono
    {event : Event Thread T}
    (step : Step state event emitted next)
    (stopped : state.queue.stopped = true) :
    next.queue.stopped = true := by
  cases step with
  | call thread operation =>
      cases operation <;> exact stopped
  | stop =>
      rfl
  | _ =>
      exact stopped

end Step

end ConcLogger.Queue
