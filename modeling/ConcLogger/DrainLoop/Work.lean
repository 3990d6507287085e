import ConcLogger.DrainLoop.Termination
import ConcLogger.Queue.Work

namespace ConcLogger.DrainLoop

open Concurrency

/-!
# What the drain loop costs

The worker makes no call that nobody has paid for: an item that is handed out
brings the price of its batch along, and with that price the worker gets back
to its next `drain`.
-/

variable {Client T : Type} {threads : Nat}

/-- What the worker has paid for outside the queue, with a batch of some length. -/
def Control.cost
    (tariff : Queue.Tariff threads)
    (length : Nat) :
    Control → Nat
  | .callDrain second => loopLeft second + 3
  | .draining second => loopLeft second
  | .entries second next =>
      loopLeft second + tariff.handed * (length - next) + tariff.batch
  | .callEmpty => 6
  | .checking => 3
  | .finished _ => 0

/-- What is still to be done in the drain loop. -/
def State.work
    [DecidableEq Client]
    [Fintype Client]
    (tariff : Queue.Tariff threads)
    (state : State Client T) : Nat :=
  state.shared.work tariff +
    state.control.cost tariff state.batch.length

/-- What an event is charged. -/
def Event.charge (tariff : Queue.Tariff threads) : Event Client T → Nat
  | .push _ _ _ => tariff.queued + 5
  | .stop _ => 4 + 4 * threads
  | .wake _ => 2
  | .ret _ | .advance _ | .notifyOne _ _ | .worker => 0

/-- The steps that are taken inside the drain loop and its queue. -/
def Event.own : Event Client T → Nat
  | .push _ _ _ | .stop _ | .wake _ => 0
  | .ret _ | .advance _ | .notifyOne _ _ | .worker => 1

/-- Inside the queue an event costs what the queue's step costs. -/
private theorem Event.price_of_shared?
    (tariff : Queue.Tariff threads)
    {event : Event Client T}
    {inner : Queue.Event (Party Client) T}
    (isInner : event.shared? = some inner) :
    inner.own = event.own ∧ inner.charge tariff = event.charge tariff := by
  cases event <;> cases isInner <;> exact ⟨rfl, rfl⟩

section Steps

variable
  [DecidableEq Client]
  [Fintype Client]
  (tariff : Queue.Tariff (Fintype.card (Party Client)))
  {state next : State Client T}
  {event : Event Client T}
  {emitted : List (Queue.Obs (Party Client) T)}

/-- Every step but the consumption of an entry is paid for. -/
theorem Step.work_le
    (batch : 7 ≤ tariff.batch)
    (linked : Linked state)
    (step : Step state event emitted next)
    (nothing : state.consumed event = []) :
    next.work tariff + event.own ≤
      state.work tariff + event.charge tariff := by
  cases step with
  | queue event inner emitted shared isInner taken =>
      have inside :=
        (Queue.Step.of_step? taken).work_le tariff linked.blank
      obtain ⟨own, charge⟩ := Event.price_of_shared? tariff isInner
      rw [own, charge] at inside
      simp only [State.work]
      omega
  | callDrain second control idle =>
      have inside :=
        (Queue.Step.call .worker (.drain state.batch) idle).work_le
          tariff linked.blank
      simp only [Queue.State.begin, Queue.Event.own, Queue.Event.charge,
        Queue.Operation.charge] at inside
      simp only [State.work, control, Control.cost, Event.own,
        Event.charge]
      omega
  | handOut second out control returning =>
      have inside := state.shared.work_moveTo_le tariff .worker .idle
      simp [Queue.State.cost, returning, Queue.Phase.cost] at inside
      simp only [State.work, control, Control.cost, Event.own,
        Event.charge, Nat.sub_zero]
      omega
  | giveUp second out control returning =>
      have inside := state.shared.work_moveTo_le tariff .worker .idle
      simp [Queue.State.cost, returning, Queue.Phase.cost] at inside
      cases second <;>
        simp [State.work, control, Control.cost, Event.own, Event.charge,
          loopLeft] <;>
        omega
  | consume second position control more =>
      simp [State.consumed, control, more] at nothing
  | clear second position control done =>
      cases second <;>
        simp [State.work, control, Control.cost, Event.own, Event.charge,
          loopLeft] <;>
        omega
  | callEmpty control idle =>
      have inside :=
        (Queue.Step.call .worker .empty idle).work_le tariff linked.blank
      simp only [Queue.State.begin, Queue.Event.own, Queue.Event.charge,
        Queue.Operation.charge] at inside
      simp only [State.work, control, Control.cost, Event.own,
        Event.charge]
      omega
  | checked result control returning =>
      have inside := state.shared.work_moveTo_le tariff .worker .idle
      simp [Queue.State.cost, returning, Queue.Phase.cost] at inside
      cases result <;>
        simp [State.work, control, Control.cost, Event.own, Event.charge,
          loopLeft] <;>
        omega

/-- Consuming an entry leaves what was paid for its handling. -/
theorem Step.work_of_consumed
    {item : Queue.Item (Party Client) T}
    (step : Step state .worker emitted next)
    (consumed : state.consumed .worker = [item]) :
    next.work tariff + tariff.handed = state.work tariff := by
  cases step with
  | queue event inner emitted shared isInner taken =>
      cases isInner
  | consume second position control more =>
      have remaining :
          state.batch.length - position =
            state.batch.length - (position + 1) + 1 := by
        omega
      simp only [State.work, control, Control.cost]
      rw [remaining, Nat.mul_succ]
      omega
  | clear second position control done =>
      simp [State.consumed, control, done] at consumed
  | callDrain second control | handOut second out control
  | giveUp second out control | callEmpty control
  | checked result control =>
      simp [State.consumed, control] at consumed

end Steps

end ConcLogger.DrainLoop
