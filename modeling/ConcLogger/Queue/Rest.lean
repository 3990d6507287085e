import ConcLogger.Queue.Accounting
import ConcLogger.Queue.Wakeups

namespace ConcLogger.Queue

open Concurrency

/-!
# The queue at rest

When no thread of a queue can go on by itself, nobody is stuck half way: every
thread has returned or sleeps, producers sleep on a full deque only and
consumers on an empty one only.  Hence they never sleep at the same time, and
after a stop nobody sleeps at all.
-/

variable {Thread T : Type}

/-! ## The mutex has a holder -/

/-- Whoever holds `mutex_` between two steps is about to fall asleep. -/
def HolderBlocks (state : State Thread T) : Prop :=
  ∀ thread,
    state.mutex = some thread → (state.phase thread).Blocking

/-- A call of `stop` that has had its critical section. -/
def Phase.PastStop : Phase Thread T → Prop
  | .stopNotifyingEmpty | .stopNotifyingFull | .stopReturning => True
  | _ => False

/-- Nobody is past the critical section of `stop` in a running queue. -/
def StopsSeen (state : State Thread T) : Prop :=
  ∀ thread,
    (state.phase thread).PastStop → state.queue.stopped = true

section Invariants

variable
  [DecidableEq Thread]
  {state next : State Thread T}
  {event : Event Thread T}
  {emitted : List (Obs Thread T)}

/-- A thread that neither holds the mutex nor takes it leaves its holder alone. -/
private theorem HolderBlocks.move
    (holder : HolderBlocks state)
    {thread : Thread}
    {phase : Phase Thread T}
    (released : ¬ (state.phase thread).Blocking)
    (moved : next.phase = Function.update state.phase thread phase)
    (mutex : next.mutex = state.mutex) :
    HolderBlocks next := by
  intro other holds
  rw [mutex] at holds
  have blocking := holder other holds
  have different : other ≠ thread := by
    rintro rfl
    exact released blocking
  rwa [moved, Function.update_of_ne different]

/-- Every step keeps the mutex with a thread that is about to sleep. -/
theorem HolderBlocks.step
    (holder : HolderBlocks state)
    (step : Step state event emitted next) :
    HolderBlocks next := by
  cases step with
  | call thread operation idle =>
      cases operation <;>
        exact holder.move (by simp [idle, Phase.Blocking]) rfl rfl
  | block thread item | drainBlock thread out =>
      intro other holds
      cases holds
      simp [Phase.Blocking]
  | sleepNotFull | sleepNotEmpty =>
      intro other holds
      cases holds
  | wakeNotFull | wakeNotEmpty =>
      exact holder
  | refuse thread item deciding | undefined thread item deciding
  | insert thread item deciding =>
      refine holder.move ?_ rfl rfl
      rcases deciding with ⟨policy, phase⟩ | ⟨phase, _⟩ <;>
        simp [phase, Phase.Blocking]
  | exhaust thread out draining | swap thread out draining =>
      refine holder.move ?_ rfl rfl
      rcases draining with phase | ⟨phase, _⟩ <;>
        simp [phase, Phase.Blocking]
  | evict thread item oldest rest phase
  | notifyOne thread chosen item undelivered notEmpty phase
  | drainNotify thread out phase | stop thread phase
  | stopNotifyEmpty thread phase | stopNotifyFull thread phase
  | empty thread phase | returnPush thread item undelivered phase =>
      exact holder.move (by simp [phase, Phase.Blocking]) rfl rfl
  | returnOther thread returning =>
      refine holder.move ?_ rfl rfl
      rcases returning with ⟨result, out, phase⟩ | phase | ⟨_, phase⟩ <;>
        simp [phase, Phase.Blocking]

/-- Every step that brings a thread past the critical section of `stop` sets the flag. -/
theorem StopsSeen.step
    (seen : StopsSeen state)
    (step : Step state event emitted next) :
    StopsSeen next := by
  intro thread past
  by_cases other : thread ≠ event.thread
  · rw [step.phase_other other] at past
    exact step.stopped_mono (seen thread past)
  · rw [not_not] at other
    subst other
    cases step with
    | call mover operation =>
        cases operation <;>
          simp [State.begin, Event.thread, Phase.PastStop] at past
    | insert mover item | evict mover item oldest rest =>
        simp only [State.insert, State.phase_moveTo, Event.thread,
          Function.update_self, State.afterInsert] at past
        split at past <;> exact past.elim
    | stop mover =>
        rfl
    | stopNotifyEmpty mover phase | stopNotifyFull mover phase =>
        exact seen mover (by rw [phase]; trivial)
    | wakeNotFull | wakeNotEmpty =>
        exact seen _ past
    | _ =>
        simp [Event.thread, Phase.PastStop] at past

variable
  {capacity : Nat}
  {allowed : State Thread T → Event Thread T → Prop}
  {observed : List (Obs Thread T)}

/-- In every reachable state the holder of the mutex is about to sleep. -/
theorem HolderBlocks.of_reaches
    (reached :
      (machine Thread T capacity).ReachesBy allowed observed state) :
    HolderBlocks state :=
  reached.invariant
    (fun _ state => HolderBlocks state)
    (by
      intro thread holds
      cases holds)
    (fun _ holder _ taken => holder.step (Step.of_step? taken))

/-- In every reachable state a `stop()` that notifies has set the flag. -/
theorem StopsSeen.of_reaches
    (reached :
      (machine Thread T capacity).ReachesBy allowed observed state) :
    StopsSeen state :=
  reached.invariant
    (fun _ state => StopsSeen state)
    (by
      intro thread past
      exact past.elim)
    (fun _ seen _ taken => seen.step (Step.of_step? taken))

end Invariants

/-! ## Nobody can go on -/

section Stuck

variable [DecidableEq Thread]

/-- The thread has no next step, whomever it would notify. -/
def State.Stuck (state : State Thread T) (thread : Thread) : Prop :=
  state.advance? thread = none ∧
    (∀ chosen, state.notifyOne? thread chosen = none) ∧
    state.ret? thread = none

variable {state : State Thread T}

/-- While the mutex is free, only threads outside the queue and sleepers are stuck. -/
theorem State.Stuck.cases
    {thread : Thread}
    (stuck : state.Stuck thread)
    (defined : Defined state)
    (free : state.mutex = none) :
    state.phase thread = .idle ∨
      (∃ item,
        state.phase thread = .pushWaiting item ∧
          thread ∈ state.notFull.waiters) ∨
      ∃ out,
        state.phase thread = .drainWaiting out ∧
          thread ∈ state.notEmpty.waiters := by
  obtain ⟨noStep, noNotification, noReturn⟩ := stuck
  cases phase : state.phase thread with
  | idle =>
      exact Or.inl rfl
  | pushWaiting item =>
      refine Or.inr (Or.inl ⟨item, rfl, ?_⟩)
      by_contra awake
      simp [State.advance?, phase, awake, free] at noStep
  | drainWaiting out =>
      refine Or.inr (Or.inr ⟨out, rfl, ?_⟩)
      by_contra awake
      simp [State.advance?, phase, awake, free] at noStep
  | pushNotifying item undelivered =>
      obtain ⟨chosen, next, notified⟩ :=
        state.notEmpty.exists_notifyOne? thread
      have silent := noNotification chosen
      simp [State.notifyOne?, phase, notified] at silent
  | undefined item =>
      exact (defined thread item phase).elim
  | pushReturning | drainReturning | stopReturning | emptyReturning =>
      simp [State.ret?, phase] at noReturn
  | push | pushBlocking | drain | drainBlocking | drainNotifying | stop
  | stopNotifyingEmpty | stopNotifyingFull | empty =>
      simp [State.advance?, phase, free] at noStep

/-- When nobody can go on, nobody holds the mutex. -/
theorem HolderBlocks.free_of_stuck
    (holder : HolderBlocks state)
    (stuck : ∀ thread, state.advance? thread = none) :
    state.mutex = none := by
  cases mutex : state.mutex with
  | none =>
      rfl
  | some thread =>
      have blocking := holder thread mutex
      have noStep := stuck thread
      cases phase : state.phase thread <;>
        simp [phase, Phase.Blocking, State.advance?] at blocking noStep

/-- How a queue stands when none of its threads can go on. -/
structure Resting (state : State Thread T) : Prop where
  unlocked : state.mutex = none
  threads :
    ∀ thread,
      state.phase thread = .idle ∨
        (∃ item,
          state.phase thread = .pushWaiting item ∧
            thread ∈ state.notFull.waiters) ∨
        ∃ out,
          state.phase thread = .drainWaiting out ∧
            thread ∈ state.notEmpty.waiters
  /-- Producers sleep on a full deque only, and only before a stop. -/
  producers :
    state.notFull.waiters.Nonempty →
    state.queue.capacity ≤ state.queue.data.length ∧
      state.queue.stopped = false
  /-- Consumers sleep on an empty deque only, and only before a stop. -/
  consumers :
    state.notEmpty.waiters.Nonempty →
    state.queue.data = [] ∧ state.queue.stopped = false

variable
  {capacity : Nat}
  {observed : List (Obs Thread T)}

/-- What is stuck in a reachable state of a queue with some capacity rests. -/
theorem Resting.of_stuck
    (positive : 0 < capacity)
    (reached :
      (machine Thread T capacity).ReachesBy EmptyOut observed state)
    (stuck : ∀ thread, state.Stuck thread) :
    Resting state := by
  have free :=
    (HolderBlocks.of_reaches reached).free_of_stuck
      fun thread => (stuck thread).1
  have threads (thread : Thread) :=
    (stuck thread).cases (.of_reaches positive reached) free
  have owesNothing (thread : Thread) :
      ¬ (state.phase thread).OwesNotFull ∧
        ¬ (state.phase thread).OwesNotEmpty ∧
        state.phase thread ≠ .stopNotifyingEmpty := by
    rcases threads thread with idle | ⟨_, phase, _⟩ | ⟨_, phase, _⟩ <;>
      simp [*, Phase.OwesNotFull, Phase.OwesNotEmpty]
  refine ⟨free, threads, ?_, ?_⟩
  · rintro ⟨producer, asleep⟩
    have unready :
        ¬ (state.queue.data.length < state.queue.capacity ∨
          state.queue.stopped = true) := by
      intro ready
      obtain ⟨thread, owes⟩ :=
        NotFullCovered.of_reaches reached producer asleep ready
      exact (owesNothing thread).1 owes
    simpa using unready
  · rintro ⟨consumer, asleep⟩
    constructor
    · by_contra something
      rcases NotEmptyCovered.of_reaches reached consumer asleep something
        with ⟨thread, owes⟩ | ⟨woken, out, waiting, awake⟩
      · exact (owesNothing thread).2.1 owes
      · rcases threads woken with idle | ⟨_, phase, _⟩ | ⟨_, _, still⟩
        · rw [idle] at waiting
          cases waiting
        · rw [phase] at waiting
          cases waiting
        · exact awake still
    · by_contra stopped
      obtain ⟨thread, owes⟩ :=
        StopCovered.of_reaches reached consumer asleep
          (Bool.not_eq_false _ ▸ stopped)
      exact (owesNothing thread).2.2 owes

/--
A queue of positive capacity whose consumers pass empty deques to `drain` does
not deadlock.  If none of its threads can go on, `mutex_` is free and every
thread has returned or sleeps in a `wait` whose predicate is false; not both
producers and consumers sleep, and in a stopped queue nobody does.
-/
theorem stuck_queue_waits_for_calls
    (positive : 0 < capacity)
    (reached :
      (machine Thread T capacity).ReachesBy EmptyOut observed state)
    (stuck : ∀ thread, state.Stuck thread) :
    Resting state ∧
      (state.notFull.waiters = ∅ ∨ state.notEmpty.waiters = ∅) ∧
      (state.queue.stopped = true →
        ∀ thread, state.phase thread = .idle) := by
  have resting := Resting.of_stuck positive reached stuck
  refine ⟨resting, ?_, ?_⟩
  · by_contra both
    simp only [not_or, ← Ne.eq_def, ← Finset.nonempty_iff_ne_empty] at both
    obtain ⟨full, _⟩ := resting.producers both.1
    obtain ⟨nothing, _⟩ := resting.consumers both.2
    rw [nothing, capacity_of_reaches reached] at full
    exact Nat.not_le_of_lt positive full
  · intro stopped thread
    rcases resting.threads thread with
      idle | ⟨_, _, asleep⟩ | ⟨_, _, asleep⟩
    · exact idle
    · have running := (resting.producers ⟨thread, asleep⟩).2
      rw [stopped] at running
      cases running
    · have running := (resting.consumers ⟨thread, asleep⟩).2
      rw [stopped] at running
      cases running

/-- Two producers and no consumer: the second one waits for a `drain()`. -/
theorem stuck_queue_waits_for_calls_of_full_deque :
    ∃ (observed : List (Obs (Fin 2) Nat)) (state : State (Fin 2) Nat),
      (machine (Fin 2) Nat 1).ReachesBy EmptyOut observed state ∧
        1 ∈ state.notFull.waiters ∧
        Resting state := by
  obtain ⟨observed, state, reached, feature⟩ :=
    (machine (Fin 2) Nat 1).exists_reachesBy EmptyOut
      [.call 0 (.push 5 .block), .advance 0, .notifyOne 0 0, .ret 0,
        .call 1 (.push 6 .block), .advance 1, .advance 1]
      (fun _ state =>
        decide (1 ∈ state.notFull.waiters) &&
          decide (∀ thread,
            (state.advance? thread).isNone = true ∧
              (∀ chosen, (state.notifyOne? thread chosen).isNone = true) ∧
              (state.ret? thread).isNone = true))
      (by decide +kernel)
  simp only [Bool.and_eq_true, decide_eq_true_eq,
    Option.isNone_iff_eq_none] at feature
  exact ⟨observed, state, reached, feature.1,
    (stuck_queue_waits_for_calls (by decide) reached feature.2).1⟩

end Stuck

end ConcLogger.Queue
