import ConcLogger.DrainLoop.Consumer

namespace ConcLogger.DrainLoop

open Concurrency

/-!
# What ties the worker to the queue

`Linked` says that the worker is inside the member function that its control
point names and that it passes only empty deques to `drain`.  With it the
drain loop is a run of the queue machine, so that every invariant of the queue
holds here as well.
-/

variable {Client T : Type}

/-- The member function that the worker is inside of. -/
def Control.member? : Control → Option Queue.Member
  | .draining _ => some .drain
  | .checking => some .empty
  | _ => none

/-- The worker has left its first loop. -/
def Control.Second : Control → Prop
  | .callDrain second | .draining second | .entries second _ =>
      second = true
  | .callEmpty | .checking | .finished _ => True

/-- The worker and its clients use the queue as the source does. -/
structure Linked (state : State Client T) : Prop where
  worker :
    (state.shared.phase .worker).member? = state.control.member?
  clients :
    ∀ id,
      (state.shared.phase (.client id)).member? ≠ some .drain ∧
        (state.shared.phase (.client id)).member? ≠ some .empty
  batch :
    (∀ second next, state.control ≠ .entries second next) →
    state.batch = []
  position :
    ∀ second next,
      state.control = .entries second next →
      next ≤ state.batch.length
  blank :
    Queue.BlankOuts state.shared

section Steps

variable
  {state next : State Client T}
  {event : Event Client T}
  {emitted : List (Queue.Obs (Party Client) T)}

/-- Clients come without a deque. -/
theorem Event.emptyOut_of_shared?
    {inner : Queue.Event (Party Client) T}
    (isInner : event.shared? = some inner)
    (shared : Queue.State (Party Client) T) :
    Queue.EmptyOut shared inner := by
  cases event <;> cases isInner <;> trivial

/-- The batch that the worker passes to `drain` is empty. -/
theorem Linked.batch_eq_nil
    (linked : Linked state)
    (second : Bool)
    (control : state.control = .callDrain second) :
    state.batch = [] :=
  linked.batch (by simp [control])

/-- Whoever is inside `push` or `stop` is a client. -/
theorem Linked.exists_client
    (linked : Linked state)
    {party : Party Client}
    (member :
      (state.shared.phase party).member? = some .push ∨
        (state.shared.phase party).member? = some .stop) :
    ∃ id, party = .client id := by
  cases party with
  | client id =>
      exact ⟨id, rfl⟩
  | worker =>
      rw [linked.worker] at member
      cases control : state.control <;>
        simp [control, Control.member?] at member

variable [DecidableEq Client]

/-- Clients do not move the worker between member functions. -/
theorem Event.memberAfter_worker
    {inner : Queue.Event (Party Client) T}
    (isInner : event.shared? = some inner)
    (before : Option Queue.Member) :
    inner.memberAfter .worker before = before := by
  cases event <;> cases isInner <;> simp [Queue.Event.memberAfter]

/-- Clients enter `push` and `stop` only. -/
theorem Event.memberAfter_client
    {inner : Queue.Event (Party Client) T}
    (isInner : event.shared? = some inner)
    (id : Client)
    {before : Option Queue.Member}
    (outside : before ≠ some .drain ∧ before ≠ some .empty) :
    inner.memberAfter (.client id) before ≠ some .drain ∧
      inner.memberAfter (.client id) before ≠ some .empty := by
  cases event <;> cases isInner <;>
    simp only [Queue.Event.memberAfter, Queue.Operation.member] <;>
    first
      | exact outside
      | split <;> simp_all

/--
A step of the drain loop is silent for the queue or a step of the queue that
passes an empty deque.
-/
theorem Step.shared_cases
    (step : Step state event emitted next)
    (blank :
      ∀ second, state.control = .callDrain second → state.batch = []) :
    (next.shared = state.shared ∧ emitted = []) ∨
      ∃ inner,
        Queue.EmptyOut state.shared inner ∧
          state.shared.step? inner = some (next.shared, emitted) := by
  cases step with
  | queue event inner emitted shared isInner taken =>
      exact Or.inr
        ⟨inner, Event.emptyOut_of_shared? isInner _, taken⟩
  | callDrain second control idle =>
      refine Or.inr ⟨.call .worker (.drain state.batch), ?_, ?_⟩
      · exact blank second control
      · simp [Queue.State.step?, idle, Queue.State.begin]
  | handOut second out control returning
  | giveUp second out control returning =>
      refine Or.inr ⟨.ret .worker, trivial, ?_⟩
      simp [Queue.State.step?, Queue.State.ret?, returning]
  | consume | clear =>
      exact Or.inl ⟨rfl, rfl⟩
  | callEmpty control idle =>
      refine Or.inr ⟨.call .worker .empty, trivial, ?_⟩
      simp [Queue.State.step?, idle, Queue.State.begin]
  | checked result control returning =>
      refine Or.inr ⟨.ret .worker, trivial, ?_⟩
      simp [Queue.State.step?, Queue.State.ret?, returning]

namespace Linked

omit [DecidableEq Client] in
/-- A thread that drains the queue is the worker. -/
theorem eq_worker_of_draining
    (linked : Linked state)
    {party : Party Client}
    {out : List (Queue.Item (Party Client) T)}
    (draining : state.shared.Draining party out) :
    party = .worker := by
  cases party with
  | worker =>
      rfl
  | client id =>
      exact ((linked.clients id).1 draining.inside_drain).elim

/-- Moving the worker leaves the clients where they are. -/
private theorem clients_moveTo
    (linked : Linked state)
    (phase : Queue.Phase (Party Client) T) :
    ∀ id,
      ((state.shared.moveTo .worker phase).phase
          (.client id)).member? ≠ some .drain ∧
        ((state.shared.moveTo .worker phase).phase
          (.client id)).member? ≠ some .empty := by
  intro id
  simpa using linked.clients id

/-- Every step keeps the worker and the queue linked. -/
theorem step
    (linked : Linked state)
    (step : Step state event emitted next) :
    Linked next := by
  have blank : Queue.BlankOuts next.shared := by
    rcases step.shared_cases linked.batch_eq_nil with
      ⟨same, _⟩ | ⟨inner, permitted, taken⟩
    · rw [same]
      exact linked.blank
    · exact linked.blank.step permitted (Queue.Step.of_step? taken)
  cases step with
  | queue event inner emitted shared isInner taken =>
      have inside := Queue.Step.of_step? taken
      exact {
        worker := by
          rw [inside.member?_eq, Event.memberAfter_worker isInner]
          exact linked.worker
        clients := by
          intro id
          rw [inside.member?_eq]
          exact Event.memberAfter_client isInner id
            (linked.clients id)
        batch := linked.batch
        position := linked.position
        blank := blank
      }
  | callDrain second control =>
      exact {
        worker := by
          simp [Queue.Phase.member?, Control.member?]
        clients := linked.clients_moveTo _
        batch := fun _ => linked.batch_eq_nil second control
        position := by
          intro second next shape
          cases shape
        blank := blank
      }
  | handOut second out =>
      exact {
        worker := by
          simp [Queue.Phase.member?, Control.member?]
        clients := linked.clients_moveTo _
        batch := fun outside => (outside second 0 rfl).elim
        position := by
          intro second next shape
          cases shape
          exact Nat.zero_le _
        blank := blank
      }
  | giveUp second out control returning =>
      have out_nil := linked.blank .worker
      rw [returning] at out_nil
      exact {
        worker := by
          cases second <;>
            simp [Queue.Phase.member?, Control.member?]
        clients := linked.clients_moveTo _
        batch := fun _ => out_nil
        position := by
          intro other next shape
          cases second <;> cases shape
        blank := blank
      }
  | consume second position control more =>
      exact {
        worker := by
          simpa [control, Control.member?] using linked.worker
        clients := linked.clients
        batch := fun outside => (outside second _ rfl).elim
        position := by
          intro second next shape
          cases shape
          exact more
        blank := blank
      }
  | clear second position control =>
      exact {
        worker := by
          cases second <;>
            simpa [control, Control.member?] using linked.worker
        clients := linked.clients
        batch := fun _ => rfl
        position := by
          intro other next shape
          cases second <;> cases shape
        blank := blank
      }
  | callEmpty control =>
      exact {
        worker := by
          simp [Queue.Phase.member?, Control.member?]
        clients := linked.clients_moveTo _
        batch := fun _ => linked.batch (by simp [control])
        position := by
          intro second next shape
          cases shape
        blank := blank
      }
  | checked result control =>
      exact {
        worker := by
          cases result <;>
            simp [Queue.Phase.member?, Control.member?]
        clients := linked.clients_moveTo _
        batch := fun _ => linked.batch (by simp [control])
        position := by
          intro second next shape
          cases result <;> cases shape
        blank := blank
      }

end Linked

end Steps

section Reached

variable
  [DecidableEq Client]
  {capacity : Nat}
  {allowed : State Client T → Event Client T → Prop}
  {observed : List (Queue.Obs (Party Client) T)}
  {state : State Client T}

/-- In every reachable state the worker and the queue are linked. -/
theorem Linked.of_reaches
    (reached :
      (machine Client T capacity).ReachesBy allowed observed state) :
    Linked state :=
  reached.invariant
    (fun _ state => Linked state)
    {
      worker := rfl
      clients := by
        intro id
        simp [machine, State.initial, Queue.State.initial,
          Queue.Phase.member?]
      batch := fun _ => rfl
      position := by
        intro second next shape
        cases shape
      blank := by
        intro party
        trivial
    }
    (fun _ linked _ taken => linked.step (Step.of_step? taken))

/-- A run of the drain loop is a run of the queue. -/
theorem reaches_queue
    (reached :
      (machine Client T capacity).ReachesBy allowed observed state) :
    (Queue.machine (Party Client) T capacity).ReachesBy
      Queue.EmptyOut observed state.shared := by
  have initially :
      (machine Client T capacity).init.shared =
        (Queue.machine (Party Client) T capacity).init :=
    rfl
  have projected :
      (Queue.machine (Party Client) T capacity).ReachesBy
        Queue.EmptyOut (observed.filterMap some) state.shared := by
    apply reached.project (fun state => state.shared) some initially
    intro observed emitted state next event before _ _ taken
    rw [List.filterMap_some]
    exact (Step.of_step? taken).shared_cases
      (Linked.of_reaches before).batch_eq_nil
  simpa using projected

end Reached

/-! ## The second loop -/

section Second

variable
  [DecidableEq Client]
  {state next : State Client T}
  {event : Event Client T}
  {emitted : List (Queue.Obs (Party Client) T)}

/-- The worker leaves its first loop only after a stop. -/
def SecondStopped (state : State Client T) : Prop :=
  state.control.Second → state.shared.queue.stopped = true

/-- Every step keeps the second loop behind the stop. -/
theorem SecondStopped.step
    (stopped : SecondStopped state)
    (exhausted : Queue.ExhaustedStopped state.shared)
    (step : Step state event emitted next) :
    SecondStopped next := by
  intro isSecond
  cases step with
  | queue event inner emitted shared isInner taken =>
      exact (Queue.Step.of_step? taken).stopped_mono
        (stopped isSecond)
  | callDrain second control | handOut second out control
  | consume second position control =>
      apply stopped
      rw [control]
      exact isSecond
  | giveUp second out control returning =>
      exact exhausted .worker out returning
  | clear second position control =>
      apply stopped
      rw [control]
      cases second with
      | true =>
          rfl
      | false =>
          cases isSecond
  | callEmpty control | checked result control =>
      apply stopped
      rw [control]
      trivial

/-- In every reachable state the second loop runs after the stop. -/
theorem SecondStopped.of_reaches
    {capacity : Nat}
    {allowed : State Client T → Event Client T → Prop}
    {observed : List (Queue.Obs (Party Client) T)}
    (reached :
      (machine Client T capacity).ReachesBy allowed observed state) :
    SecondStopped state :=
  reached.invariant
    (fun _ state => SecondStopped state)
    (by
      intro isSecond
      cases isSecond)
    (fun before stopped _ taken =>
      stopped.step
        (Queue.ExhaustedStopped.of_reaches (reaches_queue before))
        (Step.of_step? taken))

/-- While the worker is outside `drain` the deque does not become empty. -/
private theorem data_ne_nil_of_outside
    (linked : Linked state)
    (outside : state.control.member? ≠ some .drain)
    {inner : Queue.Event (Party Client) T}
    {shared : Queue.State (Party Client) T}
    (inside : Queue.Step state.shared inner emitted shared)
    (something : state.shared.queue.data ≠ []) :
    shared.queue.data ≠ [] := by
  apply inside.data_ne_nil something
  intro out draining
  have isWorker := linked.eq_worker_of_draining draining
  rw [isWorker] at draining
  apply outside
  rw [← linked.worker]
  exact draining.inside_drain

/-- The deque is not empty when the second loop calls `drain`. -/
structure Supplied (state : State Client T) : Prop where
  called :
    state.control = .callDrain true →
    state.shared.queue.data ≠ []
  draining :
    state.control = .draining true →
    (state.shared.queue.data ≠ [] ∧
        ∃ out, state.shared.phase .worker = .drain out) ∨
      ∃ out,
        state.shared.phase .worker = .drainNotifying out ∨
          state.shared.phase .worker = .drainReturning true out
  checked :
    state.control = .checking →
    state.shared.phase .worker = .emptyReturning false →
    state.shared.queue.data ≠ []
  unbroken :
    state.control ≠ .finished true

namespace Supplied

/-- Inside `drain` the worker goes from a supplied deque to a batch. -/
private theorem queue_draining
    (linked : Linked state)
    {inner : Queue.Event (Party Client) T}
    {shared : Queue.State (Party Client) T}
    (isInner : event.shared? = some inner)
    (inside : Queue.Step state.shared inner emitted shared)
    (supplied :
      (state.shared.queue.data ≠ [] ∧
          ∃ out, state.shared.phase .worker = .drain out) ∨
        ∃ out,
          state.shared.phase .worker = .drainNotifying out ∨
            state.shared.phase .worker = .drainReturning true out) :
    (shared.queue.data ≠ [] ∧
        ∃ out, shared.phase .worker = .drain out) ∨
      ∃ out,
        shared.phase .worker = .drainNotifying out ∨
          shared.phase .worker = .drainReturning true out := by
  by_cases other : Party.worker ≠ inner.thread
  · rw [inside.phase_other other]
    rcases supplied with ⟨something, waiting⟩ | handed
    · refine Or.inl ⟨inside.data_ne_nil something ?_, waiting⟩
      intro out draining
      exact other (linked.eq_worker_of_draining draining).symm
    · exact Or.inr handed
  · rw [not_not] at other
    cases inside with
    | call thread operation =>
        cases event <;> cases isInner <;> cases other
    | refuse thread item deciding | block thread item deciding
    | undefined thread item deciding | insert thread item deciding =>
        cases other
        rcases deciding with ⟨policy, phase⟩ | ⟨phase, _⟩ <;>
          simp [phase] at supplied
    | drainBlock thread out draining free nothing
    | exhaust thread out draining free nothing =>
        cases other
        rcases draining with phase | ⟨phase, _⟩ <;>
          simp [phase, nothing] at supplied
    | swap thread out draining =>
        cases other
        exact Or.inr
          ⟨state.shared.queue.data, Or.inl (by simp)⟩
    | drainNotify thread out notifying =>
        cases other
        exact Or.inr ⟨out, Or.inr (by simp)⟩
    | wakeNotFull | wakeNotEmpty =>
        exact supplied
    | returnPush | returnOther =>
        cases event <;> cases isInner
        cases other
    | evict thread item oldest rest phase
    | sleepNotFull thread item phase
    | notifyOne thread chosen item undelivered notEmpty phase
    | sleepNotEmpty thread out phase
    | stop thread phase | stopNotifyEmpty thread phase
    | stopNotifyFull thread phase | empty thread phase =>
        cases other
        simp [phase] at supplied

/-- A steady answer of `empty()` was given by a deque that was not empty. -/
private theorem queue_checked
    (linked : Linked state)
    (control : state.control = .checking)
    {inner : Queue.Event (Party Client) T}
    {shared : Queue.State (Party Client) T}
    (inside : Queue.Step state.shared inner emitted shared)
    (answered :
      state.shared.phase .worker = .emptyReturning false →
      state.shared.queue.data ≠ [])
    (returning : shared.phase .worker = .emptyReturning false) :
    shared.queue.data ≠ [] := by
  have outside : state.control.member? ≠ some .drain := by
    simp [control, Control.member?]
  rcases inside.emptyReturning_cause returning with
    before | ⟨_, answer, same, _⟩
  · exact data_ne_nil_of_outside linked outside inside
      (answered before)
  · rw [same]
    simpa [BoundedQueue.empty] using answer.symm

omit [DecidableEq Client] in
/-- Elsewhere nothing is asked of the deque. -/
private theorem elsewhere
    (called : state.control ≠ .callDrain true)
    (draining : state.control ≠ .draining true)
    (checking : state.control ≠ .checking)
    (unbroken : state.control ≠ .finished true) :
    Supplied state where
  called control := (called control).elim
  draining control := (draining control).elim
  checked control := (checking control).elim
  unbroken := unbroken

/-- Every step keeps the second loop supplied. -/
theorem step
    (supplied : Supplied state)
    (linked : Linked state)
    (step : Step state event emitted next) :
    Supplied next := by
  cases step with
  | queue event inner emitted shared isInner taken =>
      have inside := Queue.Step.of_step? taken
      exact {
        called := by
          intro control
          have outside : state.control.member? ≠ some .drain := by
            simp [show state.control = .callDrain true from control,
              Control.member?]
          exact data_ne_nil_of_outside linked outside inside
            (supplied.called control)
        draining := fun control =>
          queue_draining linked isInner inside
            (supplied.draining control)
        checked := fun control =>
          queue_checked linked control inside
            (supplied.checked control)
        unbroken := supplied.unbroken
      }
  | callDrain second control =>
      exact {
        called := by simp
        draining := by
          intro isSecond
          simp only [Control.draining.injEq] at isSecond
          subst isSecond
          exact Or.inl
            ⟨supplied.called control, state.batch, by simp⟩
        checked := by simp
        unbroken := by simp
      }
  | handOut | consume =>
      exact elsewhere (by simp) (by simp) (by simp) (by simp)
  | callEmpty control =>
      exact {
        called := by simp
        draining := by simp
        checked := by simp
        unbroken := by simp
      }
  | giveUp second out control returning =>
      cases second with
      | true =>
          have handed := supplied.draining control
          simp [returning] at handed
      | false =>
          exact elsewhere (by simp) (by simp) (by simp) (by simp)
  | clear second position control =>
      cases second <;>
        exact elsewhere (by simp) (by simp) (by simp) (by simp)
  | checked result control returning =>
      cases result with
      | true =>
          exact elsewhere (by simp) (by simp) (by simp) (by simp)
      | false =>
          exact {
            called := fun _ => supplied.checked control returning
            draining := by simp
            checked := by simp
            unbroken := by simp
          }

/-- In every reachable state the second loop is supplied. -/
theorem of_reaches
    {capacity : Nat}
    {allowed : State Client T → Event Client T → Prop}
    {observed : List (Queue.Obs (Party Client) T)}
    (reached :
      (machine Client T capacity).ReachesBy allowed observed state) :
    Supplied state :=
  reached.invariant
    (fun _ state => Supplied state)
    (elsewhere (by simp [machine, State.initial])
      (by simp [machine, State.initial])
      (by simp [machine, State.initial])
      (by simp [machine, State.initial]))
    (fun before supplied _ taken =>
      supplied.step (Linked.of_reaches before) (Step.of_step? taken))

end Supplied

end Second

end ConcLogger.DrainLoop
