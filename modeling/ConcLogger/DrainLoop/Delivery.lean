import ConcLogger.DrainLoop.Invariant

namespace ConcLogger.DrainLoop

open Concurrency

/-!
# Handed out and not yet consumed

A batch leaves the queue at the swap and is consumed entry by entry.  What has
been handed out is at any time what has been consumed followed by what is
outstanding, whichever of the two loops is running.
-/

variable {Client T : Type}

/-- The batch that a call of `drain` is about to return. -/
def handedBy :
    Queue.Phase (Party Client) T →
      List (Queue.Item (Party Client) T)
  | .drainNotifying out | .drainReturning true out => out
  | _ => []

/-- The deque that a call of `drain` works on, while the call is under way. -/
def passedTo? :
    Queue.Phase (Party Client) T →
      Option (List (Queue.Item (Party Client) T))
  | .drain out | .drainBlocking out | .drainWaiting out
  | .drainNotifying out | .drainReturning _ out => some out
  | _ => none

/-- The contents of the worker's `batch`, entries already consumed included. -/
def State.held (state : State Client T) :
    List (Queue.Item (Party Client) T) :=
  (passedTo? (state.shared.phase .worker)).getD state.batch

/-- What was handed out to the worker and not consumed yet. -/
def State.outstanding (state : State Client T) :
    List (Queue.Item (Party Client) T) :=
  match state.control with
  | .draining _ => handedBy (state.shared.phase .worker)
  | .entries _ next => state.batch.drop next
  | _ => []

/-- What the event consumes. -/
def State.consumed (state : State Client T) :
    Event Client T → List (Queue.Item (Party Client) T)
  | .worker =>
      match state.control with
      | .entries _ next => state.batch[next]?.toList
      | _ => []
  | _ => []

section Steps

variable
  [DecidableEq Client]
  {state next : State Client T}
  {event : Event Client T}
  {emitted : List (Queue.Obs (Party Client) T)}

omit [DecidableEq Client] in
/-- Steps of the queue consume nothing. -/
private theorem consumed_of_shared?
    {inner : Queue.Event (Party Client) T}
    (isInner : event.shared? = some inner) :
    state.consumed event = [] := by
  cases event with
  | worker =>
      cases isInner
  | _ =>
      rfl

/-- Only a swap hands out, and only the worker swaps. -/
private theorem handedBy_queue
    (linked : Linked state)
    {inner : Queue.Event (Party Client) T}
    {shared : Queue.State (Party Client) T}
    (isInner : event.shared? = some inner)
    (inside : Queue.Step state.shared inner emitted shared) :
    handedBy (shared.phase .worker) =
      handedBy (state.shared.phase .worker) ++
        Queue.handed emitted := by
  by_cases other : Party.worker ≠ inner.thread
  · rw [inside.phase_other other]
    cases inside with
    | swap thread out draining =>
        exact (other (linked.eq_worker_of_draining draining).symm).elim
    | _ =>
        simp [Queue.handed, Queue.batches]
  · rw [not_not] at other
    cases inside with
    | call thread operation =>
        cases event <;> cases isInner <;> cases other
    | returnPush thread item | returnOther thread =>
        cases event <;> cases isInner
        cases other
    | refuse thread item deciding | block thread item deciding
    | undefined thread item deciding =>
        cases other
        rcases deciding with ⟨policy, phase⟩ | ⟨phase, _⟩ <;>
          simp [phase, handedBy, Queue.handed, Queue.batches]
    | insert thread item deciding =>
        cases other
        rcases deciding with ⟨policy, phase⟩ | ⟨phase, _⟩ <;>
          cases state.shared.queue.data <;>
          simp [phase, handedBy, Queue.handed, Queue.batches,
            Queue.State.insert, Queue.State.afterInsert]
    | evict thread item oldest rest phase =>
        cases other
        cases rest <;>
          simp [phase, handedBy, Queue.handed, Queue.batches,
            Queue.State.insert, Queue.State.afterInsert]
    | drainBlock thread out draining | exhaust thread out draining
    | swap thread out draining =>
        cases other
        rcases draining with phase | ⟨phase, _⟩ <;>
          simp [phase, handedBy, Queue.handed, Queue.batches]
    | wakeNotFull | wakeNotEmpty =>
        simp [Queue.handed, Queue.batches]
    | sleepNotFull thread item phase
    | notifyOne thread chosen item undelivered notEmpty phase
    | sleepNotEmpty thread out phase | drainNotify thread out phase
    | stop thread phase | stopNotifyEmpty thread phase
    | stopNotifyFull thread phase | empty thread phase =>
        cases other
        simp [phase, handedBy, Queue.handed, Queue.batches]

omit [DecidableEq Client] in
/-- Outside `drain` the worker has no batch in its hands. -/
theorem handedBy_eq_nil
    {phase : Queue.Phase (Party Client) T}
    (outside : phase.member? ≠ some .drain) :
    handedBy phase = [] := by
  cases phase with
  | drainNotifying out =>
      simp [Queue.Phase.member?] at outside
  | drainReturning result out =>
      simp [Queue.Phase.member?] at outside
  | _ =>
      rfl

/-- What is outstanding shrinks by what is consumed and grows by a swap. -/
theorem Step.outstanding_eq
    (linked : Linked state)
    (step : Step state event emitted next) :
    state.consumed event ++ next.outstanding =
      state.outstanding ++ Queue.handed emitted := by
  cases step with
  | queue event inner emitted shared isInner taken =>
      have inside := Queue.Step.of_step? taken
      have grows := handedBy_queue linked isInner inside
      rw [consumed_of_shared? isInner, List.nil_append]
      cases control : state.control with
      | draining second =>
          simpa [State.outstanding, control] using grows
      | _ =>
          -- Outside `drain` the worker receives nothing.
          have outside :
              (state.shared.phase .worker).member? ≠ some .drain := by
            simp [linked.worker, control, Control.member?]
          have outsideNext :
              (shared.phase .worker).member? ≠ some .drain := by
            rw [inside.member?_eq, Event.memberAfter_worker isInner]
            exact outside
          rw [handedBy_eq_nil outside, handedBy_eq_nil outsideNext,
            List.nil_append] at grows
          simp [State.outstanding, control, ← grows]
  | callDrain second control =>
      simp [State.consumed, State.outstanding, control, handedBy,
        Queue.handed, Queue.batches]
  | handOut second out control returning =>
      simp [State.consumed, State.outstanding, control, returning,
        handedBy, Queue.handed, Queue.batches]
  | giveUp second out control returning =>
      cases second <;>
        simp [State.consumed, State.outstanding, control, returning,
          handedBy, Queue.handed, Queue.batches]
  | consume second position control more =>
      simp [State.consumed, State.outstanding, control, more,
        Queue.handed, Queue.batches]
  | clear second position control done =>
      cases second <;>
        simp [State.consumed, State.outstanding, control, done,
          Queue.handed, Queue.batches]
  | callEmpty control =>
      simp [State.consumed, State.outstanding, control,
        Queue.handed, Queue.batches]
  | checked result control =>
      cases result <;>
        simp [State.consumed, State.outstanding, control,
          Queue.handed, Queue.batches]

end Steps

section Bounds

variable
  [DecidableEq Client]
  {capacity : Nat}
  {allowed : State Client T → Event Client T → Prop}
  {observed : List (Queue.Obs (Party Client) T)}
  {state : State Client T}

/-- The worker's batch fits the capacity. -/
theorem batch_le_capacity
    (reached :
      (machine Client T capacity).ReachesBy allowed observed state) :
    state.batch.length ≤ capacity := by
  refine reached.invariant
    (fun _ state => state.batch.length ≤ capacity)
    (Nat.zero_le _) ?_
  intro observed emitted state next event before fits _ taken
  cases Step.of_step? taken with
  | handOut second out control returning =>
      have within :=
        (Queue.Bounded.of_reaches (reaches_queue before)).phases .worker
      rw [Queue.capacity_of_reaches (reaches_queue before),
        returning] at within
      exact within
  | giveUp second out control returning =>
      have out_nil := (Linked.of_reaches before).blank .worker
      rw [returning] at out_nil
      have nothing : out = [] := out_nil
      simp [nothing]
  | clear =>
      exact Nat.zero_le _
  | _ =>
      exact fits

/-- What is outstanding fits the capacity. -/
theorem outstanding_le_capacity
    (reached :
      (machine Client T capacity).ReachesBy allowed observed state) :
    state.outstanding.length ≤ capacity := by
  unfold State.outstanding
  split
  · have within :=
      (Queue.Bounded.of_reaches (reaches_queue reached)).phases .worker
    rw [Queue.capacity_of_reaches (reaches_queue reached)] at within
    cases phase : state.shared.phase .worker with
    | drainNotifying out =>
        simpa [phase, handedBy, Queue.Phase.Within] using within
    | drainReturning result out =>
        cases result with
        | true =>
            simpa [phase, handedBy, Queue.Phase.Within] using within
        | false =>
            exact Nat.zero_le _
    | _ =>
        exact Nat.zero_le _
  · rw [List.length_drop]
    exact (Nat.sub_le _ _).trans (batch_le_capacity reached)
  · exact Nat.zero_le _

/-- The deque fits the capacity. -/
theorem data_le_capacity
    (reached :
      (machine Client T capacity).ReachesBy allowed observed state) :
    state.shared.queue.data.length ≤ capacity := by
  have inQueue := reaches_queue reached
  have fits := (Queue.Bounded.of_reaches inQueue).data
  rwa [Queue.capacity_of_reaches inQueue] at fits

/-- The contents of `batch` fit the capacity, also while `drain` works on it. -/
theorem held_le_capacity
    (reached :
      (machine Client T capacity).ReachesBy allowed observed state) :
    state.held.length ≤ capacity := by
  have inQueue := reaches_queue reached
  have blank := (Linked.of_reaches reached).blank .worker
  have within := (Queue.Bounded.of_reaches inQueue).phases .worker
  rw [Queue.capacity_of_reaches inQueue] at within
  unfold State.held
  cases phase : state.shared.phase .worker with
  | drain out | drainBlocking out | drainWaiting out =>
      -- Before the swap `drain_loop` passes an empty deque.
      rw [phase] at blank
      have nothing : out = [] := blank
      simp [passedTo?, nothing]
  | drainNotifying out =>
      rw [phase] at within
      exact within
  | drainReturning result out =>
      rw [phase] at blank within
      cases result with
      | true =>
          exact within
      | false =>
          have nothing : out = [] := blank
          simp [passedTo?, nothing]
  | _ =>
      exact batch_le_capacity reached

/--
Whatever policies the producers mix and whoever wakes up when, the deque fits
the capacity, and deque and batch together fit twice the capacity.
-/
theorem queue_and_batch_are_bounded
    (reached :
      (machine Client T capacity).ReachesBy allowed observed state) :
    state.shared.queue.data.length ≤ capacity ∧
      state.shared.queue.data.length + state.held.length ≤
        2 * capacity := by
  have queued := data_le_capacity reached
  have batched := held_le_capacity reached
  exact ⟨queued, by omega⟩

end Bounds

/--
Capacity one and three producers: one item is in the batch, one took its place
in the deque, and the third producer has been woken and sleeps again.
-/
theorem queue_and_batch_are_bounded_after_wakeup :
    ∃ (observed : List (Queue.Obs (Party (Fin 3)) Nat))
      (state : State (Fin 3) Nat),
      (machine (Fin 3) Nat 1).Reaches observed state ∧
        state.shared.queue.data.map Queue.Item.value = [20] ∧
        state.held.map Queue.Item.value = [10] ∧
        .client 2 ∈ state.shared.notFull.waiters ∧
        state.shared.queue.data.length + state.held.length ≤
          2 * 1 := by
  obtain ⟨observed, state, reached, feature⟩ :=
    (machine (Fin 3) Nat 1).exists_reaches
      [.push 0 10 .dropNewest, .advance (.client 0),
        .push 1 20 .block, .advance (.client 1), .advance (.client 1),
        .push 2 30 .block, .advance (.client 2), .advance (.client 2),
        .worker, .advance .worker, .advance .worker, .worker,
        .advance (.client 1),
        .advance (.client 2), .advance (.client 2)]
      (fun _ state =>
        state.shared.queue.data.map Queue.Item.value == [20] &&
          state.held.map Queue.Item.value == [10] &&
          decide (.client 2 ∈ state.shared.notFull.waiters))
      (by decide +kernel)
  simp only [Bool.and_eq_true, beq_iff_eq,
    decide_eq_true_eq] at feature
  obtain ⟨⟨queued, batched⟩, asleep⟩ := feature
  exact ⟨observed, state, reached, queued, batched, asleep,
    (queue_and_batch_are_bounded reached).2⟩

/-! ## The load of the queue, party by party -/

/-- Outside `push` a party weighs what it was handed. -/
theorem weight_eq_length_handedBy
    {phase : Queue.Phase (Party Client) T}
    (outside : phase.member? ≠ some .push) :
    phase.weight = (handedBy phase).length := by
  cases phase with
  | drainReturning result out =>
      cases result <;> rfl
  | push | pushBlocking | pushWaiting | pushNotifying
  | pushReturning | undefined =>
      simp [Queue.Phase.member?] at outside
  | _ =>
      rfl

/-- A sum over the parties is the worker's part and the clients' parts. -/
theorem sum_party
    [Fintype Client]
    (part : Party Client → Nat) :
    ∑ party, part party =
      part .worker + ∑ id, part (.client id) := by
  have reindexed :
      ∑ party, part party =
        ∑ option, part ((Party.equivOption Client).symm option) :=
    (Equiv.sum_comp (Party.equivOption Client).symm part).symm
  rw [reindexed, Fintype.sum_option]
  rfl

end ConcLogger.DrainLoop
