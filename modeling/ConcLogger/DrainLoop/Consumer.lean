import Mathlib.Data.Fintype.Option
import ConcLogger.Queue.Accounting
import ConcLogger.Queue.Conservation

namespace ConcLogger.DrainLoop

open Concurrency

/-!
# The drain loop as the queue's only consumer

`Logger::drain_loop` without what it does to an entry.  One worker runs both
loops, any number of clients call `push` and `stop`, and every access to the
queue is a step of the queue machine.
-/

/-- The threads that use the queue. -/
inductive Party (Client : Type) where
  | worker
  | client (id : Client)
  deriving Repr, DecidableEq

/-- The worker is one more party next to the clients. -/
def Party.equivOption (Client : Type) :
    Party Client ≃ Option Client where
  toFun
    | .worker => none
    | .client id => some id
  invFun
    | none => .worker
    | some id => .client id
  left_inv party := by
    cases party <;> rfl
  right_inv party := by
    cases party <;> rfl

instance {Client : Type} [Fintype Client] : Fintype (Party Client) :=
  Fintype.ofEquiv (Option Client) (Party.equivOption Client).symm

/-- Where the worker is; `second` tells its second loop from its first. -/
inductive Control where
  /-- Before `queue_.drain(batch)`. -/
  | callDrain (second : Bool)
  /-- Inside `queue_.drain(batch)`. -/
  | draining (second : Bool)
  /-- The loop over the batch; `next` entries have been handled. -/
  | entries (second : Bool) (next : Nat)
  /-- Before `queue_.empty()`. -/
  | callEmpty
  /-- Inside `queue_.empty()`. -/
  | checking
  /-- `drain_loop` has returned, possibly by the `break` of its second loop. -/
  | finished (broke : Bool)
  deriving Repr, DecidableEq

/-- The queue with its threads, and the local state of the worker. -/
structure State (Client T : Type) where
  shared : Queue.State (Party Client) T
  control : Control
  batch : List (Queue.Item (Party Client) T)

/-- Scheduler choices. -/
inductive Event (Client T : Type) where
  | push (client : Client) (value : T) (policy : OverflowPolicy)
  | stop (client : Client)
  | ret (client : Client)
  | advance (party : Party Client)
  | notifyOne (party chosen : Party Client)
  | wake (party : Party Client)
  /-- The worker's next step outside the queue, a call or a return included. -/
  | worker

/-- The step of the queue that an event is, unless it is the worker's own. -/
def Event.shared? {Client T : Type} :
    Event Client T → Option (Queue.Event (Party Client) T)
  | .push client value policy => some (.call (.client client) (.push value policy))
  | .stop client => some (.call (.client client) .stop)
  | .ret client => some (.ret (.client client))
  | .advance party => some (.advance party)
  | .notifyOne party chosen => some (.notifyOne party chosen)
  | .wake party => some (.wake party)
  | .worker => none

/-- The party that takes a step; wakeups are nobody's. -/
def Event.party? {Client T : Type} :
    Event Client T → Option (Party Client)
  | .push client _ _ | .stop client | .ret client => some (.client client)
  | .advance party | .notifyOne party _ => some party
  | .worker => some .worker
  | .wake _ => none

namespace State

variable {Client T : Type}

/-- The worker has just been started on a new queue. -/
def initial (capacity : Nat) : State Client T where
  shared := .initial capacity
  control := .callDrain false
  batch := []

variable [DecidableEq Client]

/-- Take one step of the queue and go on with the given local state. -/
def within
    (state : State Client T)
    (event : Queue.Event (Party Client) T)
    (control : Control)
    (batch : List (Queue.Item (Party Client) T)) :
    Option (State Client T × List (Queue.Obs (Party Client) T)) :=
  (state.shared.step? event).map fun result =>
    ({ shared := result.1, control := control, batch := batch }, result.2)

/-- The worker's next step outside the queue. -/
def worker?
    (state : State Client T) :
    Option (State Client T × List (Queue.Obs (Party Client) T)) :=
  match state.control with
  | .callDrain second =>
      state.within (.call .worker (.drain state.batch))
        (.draining second) state.batch
  | .draining second =>
      match state.shared.phase .worker with
      | .drainReturning true out =>
          state.within (.ret .worker) (.entries second 0) out
      | .drainReturning false out =>
          state.within (.ret .worker)
            (if second then .finished true else .callEmpty) out
      | _ =>
          none
  | .entries second next =>
      if next < state.batch.length then
        some ({ state with control := .entries second (next + 1) }, [])
      else
        -- `batch.clear()`, then the test of the loop that is running.
        some
          ({ state with
              control := if second then .callEmpty else .callDrain false
              batch := [] }, [])
  | .callEmpty =>
      state.within (.call .worker .empty) .checking state.batch
  | .checking =>
      match state.shared.phase .worker with
      | .emptyReturning result =>
          state.within (.ret .worker)
            (if result then .finished false else .callDrain true)
            state.batch
      | _ =>
          none
  | .finished _ =>
      none

/-- One step of the worker or of a client. -/
def step?
    (state : State Client T)
    (event : Event Client T) :
    Option (State Client T × List (Queue.Obs (Party Client) T)) :=
  match event.shared? with
  | some inner =>
      state.within inner state.control state.batch
  | none =>
      state.worker?

end State

/-- The drain loop on a queue of a given capacity as a machine. -/
def machine
    (Client T : Type)
    [DecidableEq Client]
    (capacity : Nat) :
    Machine (State Client T) (Event Client T)
      (Queue.Obs (Party Client) T) where
  init := .initial capacity
  step? := State.step?

/-! ## What one step can do -/

/-- The steps of the drain loop, with guards and effects. -/
inductive Step
    {Client T : Type}
    [DecidableEq Client]
    (state : State Client T) :
    Event Client T →
      List (Queue.Obs (Party Client) T) →
      State Client T → Prop where
  | queue
      (event : Event Client T)
      (inner : Queue.Event (Party Client) T)
      (emitted : List (Queue.Obs (Party Client) T))
      (shared : Queue.State (Party Client) T)
      (isInner : event.shared? = some inner)
      (taken : state.shared.step? inner = some (shared, emitted)) :
      Step state event emitted { state with shared := shared }
  | callDrain
      (second : Bool)
      (control : state.control = .callDrain second)
      (idle : state.shared.phase .worker = .idle) :
      Step state .worker []
        { state with
          shared := state.shared.moveTo .worker (.drain state.batch)
          control := .draining second }
  | handOut
      (second : Bool)
      (out : List (Queue.Item (Party Client) T))
      (control : state.control = .draining second)
      (returning : state.shared.phase .worker = .drainReturning true out) :
      Step state .worker []
        { shared := state.shared.moveTo .worker .idle
          control := .entries second 0
          batch := out }
  | giveUp
      (second : Bool)
      (out : List (Queue.Item (Party Client) T))
      (control : state.control = .draining second)
      (returning : state.shared.phase .worker = .drainReturning false out) :
      Step state .worker []
        { shared := state.shared.moveTo .worker .idle
          control := if second then .finished true else .callEmpty
          batch := out }
  | consume
      (second : Bool)
      (next : Nat)
      (control : state.control = .entries second next)
      (more : next < state.batch.length) :
      Step state .worker []
        { state with control := .entries second (next + 1) }
  | clear
      (second : Bool)
      (next : Nat)
      (control : state.control = .entries second next)
      (done : state.batch.length ≤ next) :
      Step state .worker []
        { state with
          control := if second then .callEmpty else .callDrain false
          batch := [] }
  | callEmpty
      (control : state.control = .callEmpty)
      (idle : state.shared.phase .worker = .idle) :
      Step state .worker []
        { state with
          shared := state.shared.moveTo .worker .empty
          control := .checking }
  | checked
      (result : Bool)
      (control : state.control = .checking)
      (returning : state.shared.phase .worker = .emptyReturning result) :
      Step state .worker []
        { state with
          shared := state.shared.moveTo .worker .idle
          control := if result then .finished false else .callDrain true }

namespace Step

variable
  {Client T : Type}
  [DecidableEq Client]
  {state next : State Client T}
  {emitted : List (Queue.Obs (Party Client) T)}

/-- Every step that the worker takes outside the queue is listed. -/
private theorem of_worker?
    (taken : state.worker? = some (next, emitted)) :
    Step state .worker emitted next := by
  unfold State.worker? State.within at taken
  cases control : state.control with
  | callDrain second =>
      simp only [control, Option.map_eq_some_iff] at taken
      obtain ⟨⟨shared, quiet⟩, called, shape⟩ := taken
      cases idle : state.shared.phase .worker <;>
        simp only [Queue.State.step?, idle, reduceCtorEq,
          Option.some.injEq, Prod.mk.injEq] at called
      obtain ⟨rfl, rfl⟩ := called
      cases shape
      exact .callDrain second control idle
  | draining second =>
      simp only [control] at taken
      split at taken
      · rename_i out returning
        simp only [Queue.State.step?, Queue.State.ret?, returning,
          Option.map_some, Option.some.injEq] at taken
        cases taken
        exact .handOut second out control returning
      · rename_i out returning
        simp only [Queue.State.step?, Queue.State.ret?, returning,
          Option.map_some, Option.some.injEq] at taken
        cases taken
        exact .giveUp second out control returning
      · cases taken
  | entries second position =>
      simp only [control] at taken
      split at taken
      · rename_i more
        cases taken
        exact .consume second position control more
      · rename_i done
        cases taken
        exact .clear second position control (Nat.le_of_not_lt done)
  | callEmpty =>
      simp only [control, Option.map_eq_some_iff] at taken
      obtain ⟨⟨shared, quiet⟩, called, shape⟩ := taken
      cases idle : state.shared.phase .worker <;>
        simp only [Queue.State.step?, idle, reduceCtorEq,
          Option.some.injEq, Prod.mk.injEq] at called
      obtain ⟨rfl, rfl⟩ := called
      cases shape
      exact .callEmpty control idle
  | checking =>
      simp only [control] at taken
      split at taken
      · rename_i result returning
        simp only [Queue.State.step?, Queue.State.ret?, returning,
          Option.map_some, Option.some.injEq] at taken
        cases taken
        exact .checked result control returning
      · cases taken
  | finished broke =>
      simp [control] at taken

/-- The executable step function takes only the listed steps. -/
theorem of_step?
    {event : Event Client T}
    (taken : state.step? event = some (next, emitted)) :
    Step state event emitted next := by
  unfold State.step? at taken
  cases isInner : event.shared? with
  | some inner =>
      simp only [isInner, State.within, Option.map_eq_some_iff] at taken
      obtain ⟨⟨shared, quiet⟩, inside, shape⟩ := taken
      cases shape
      exact .queue event inner quiet shared isInner inside
  | none =>
      simp only [isInner] at taken
      cases event with
      | worker =>
          exact of_worker? taken
      | _ =>
          cases isInner

end Step

section Frame

variable
  {Client T : Type}
  [DecidableEq Client]
  {state next : State Client T}
  {emitted : List (Queue.Obs (Party Client) T)}

/-- Steps of the queue leave the local state of the worker alone. -/
theorem State.step?_of_shared?
    {event : Event Client T}
    {inner : Queue.Event (Party Client) T}
    (isInner : event.shared? = some inner)
    (taken : state.step? event = some (next, emitted)) :
    state.shared.step? inner = some (next.shared, emitted) ∧
      next.control = state.control ∧
      next.batch = state.batch := by
  simp only [State.step?, isInner, State.within,
    Option.map_eq_some_iff] at taken
  obtain ⟨⟨shared, seen⟩, inside, shape⟩ := taken
  cases shape
  exact ⟨inside, rfl, rfl⟩

/-- Such a step is one of the listed steps of the queue. -/
theorem State.queueStep_of_shared?
    {event : Event Client T}
    {inner : Queue.Event (Party Client) T}
    (isInner : event.shared? = some inner)
    (taken : state.step? event = some (next, emitted)) :
    Queue.Step state.shared inner emitted next.shared :=
  Queue.Step.of_step? (State.step?_of_shared? isInner taken).1

omit [DecidableEq Client] in
/-- A client does not take the worker's own step. -/
theorem Event.ne_worker_of_client
    {event : Event Client T}
    {id : Client}
    (owner : event.party? = some (.client id)) :
    event ≠ .worker := by
  rintro rfl
  cases owner

omit [DecidableEq Client] in
/-- Every event but the worker's own is a step of the queue. -/
theorem Event.exists_shared?
    {event : Event Client T}
    (other : event ≠ .worker) :
    ∃ inner, event.shared? = some inner := by
  cases event with
  | worker =>
      exact (other rfl).elim
  | _ =>
      exact ⟨_, rfl⟩

/-- The worker's own steps leave the clients and the deque alone. -/
theorem Step.clients_of_worker
    (step : Step state .worker emitted next) :
    (∀ id,
      next.shared.phase (.client id) =
        state.shared.phase (.client id)) ∧
      next.shared.queue = state.shared.queue ∧
      emitted = [] := by
  cases step with
  | queue event inner emitted shared isInner taken =>
      cases isInner
  | _ =>
      exact ⟨by simp, rfl, rfl⟩

/-- A step leaves the phases of all parties but the one that takes it alone. -/
theorem Step.phase_of_other
    {event : Event Client T}
    {party : Party Client}
    (step : Step state event emitted next)
    (other : event.party? ≠ some party) :
    next.shared.phase party = state.shared.phase party := by
  cases step with
  | queue event inner emitted shared isInner taken =>
      have inside := Queue.Step.of_step? taken
      cases event with
      | wake waker =>
          cases isInner
          exact congrFun inside.phase_of_wake party
      | worker =>
          cases isInner
      | _ =>
          cases isInner
          refine inside.phase_other ?_
          rintro rfl
          exact other rfl
  | _ =>
      cases party with
      | worker =>
          exact (other rfl).elim
      | client id =>
          simp

/-- A worker that has finished stays finished. -/
theorem Step.control_of_finished
    {event : Event Client T}
    {broke : Bool}
    (step : Step state event emitted next)
    (finished : state.control = .finished broke) :
    next.control = .finished broke := by
  cases step with
  | queue event inner emitted shared isInner taken =>
      exact finished
  | callDrain | handOut | giveUp | consume | clear | callEmpty | checked =>
      simp_all

end Frame

end ConcLogger.DrainLoop
