import ConcLogger.Queue.Conservation

namespace ConcLogger.Queue

open Concurrency

/-!
# What the queue holds and what its callers owe

The deque never outgrows the capacity.  The load of a queue counts the queued
items, the items of undecided pushes, the results that pushes still have to
return and the batches that `drain()` calls still have to return; only calls
and returns change it.
-/

variable {Thread T : Type}

/-! ## Bounds -/

/-- A phase respects the capacity, and a push reports at most one lost item. -/
def Phase.Within (capacity : Nat) : Phase Thread T → Prop
  | .drainNotifying out | .drainReturning true out => out.length ≤ capacity
  | .pushNotifying _ undelivered | .pushReturning _ undelivered =>
      undelivered ≤ 1
  | _ => True

/-- The deque and every batch on its way out fit the capacity. -/
structure Bounded (state : State Thread T) : Prop where
  data :
    state.queue.data.length ≤ state.queue.capacity
  phases :
    ∀ thread, (state.phase thread).Within state.queue.capacity

namespace Bounded

variable [DecidableEq Thread] {state : State Thread T}

private theorem move
    (bounded : Bounded state)
    {thread : Thread}
    {phase : Phase Thread T}
    (within : phase.Within state.queue.capacity) :
    ∀ other,
      (Function.update state.phase thread phase other).Within
        state.queue.capacity :=
  forall_update
    (fun _ (phase : Phase Thread T) =>
      phase.Within state.queue.capacity)
    (fun other _ => bounded.phases other) within

omit [DecidableEq Thread] in
/-- The phase after an insertion is within bounds. -/
private theorem afterInsert_within
    (capacity : Nat)
    (item : Item Thread T)
    {undelivered : Nat}
    (wasEmpty : Bool)
    (small : undelivered ≤ 1) :
    (State.afterInsert item undelivered wasEmpty).Within capacity := by
  cases wasEmpty <;> exact small

/-- Every step keeps the bounds. -/
theorem step
    {event : Event Thread T}
    {emitted : List (Obs Thread T)}
    {next : State Thread T}
    (bounded : Bounded state)
    (blank : BlankOuts state)
    (step : Step state event emitted next) :
    Bounded next := by
  cases step with
  | call thread operation =>
      cases operation <;>
        exact ⟨bounded.data, bounded.move trivial⟩
  | refuse thread item =>
      exact ⟨bounded.data, bounded.move (Nat.le_refl 1)⟩
  | insert thread item deciding free room =>
      refine ⟨?_, bounded.move
        (afterInsert_within _ item _ (Nat.zero_le 1))⟩
      simpa [State.insert] using Nat.succ_le_of_lt room
  | evict thread item oldest rest phase free contents =>
      refine ⟨?_, bounded.move
        (afterInsert_within _ item _ (Nat.le_refl 1))⟩
      simpa [State.insert, contents] using bounded.data
  | notifyOne thread chosen item undelivered notEmpty phase =>
      refine ⟨bounded.data, bounded.move ?_⟩
      simpa [phase, Phase.Within] using bounded.phases thread
  | swap thread out draining =>
      have out_nil := blank.out_eq_nil draining
      refine ⟨?_, bounded.move bounded.data⟩
      simp [out_nil]
  | drainNotify thread out phase =>
      refine ⟨bounded.data, bounded.move ?_⟩
      simpa [phase, Phase.Within] using bounded.phases thread
  | wakeNotFull | wakeNotEmpty =>
      exact ⟨bounded.data, bounded.phases⟩
  | block | undefined | sleepNotFull | drainBlock | exhaust
  | sleepNotEmpty | stop | stopNotifyEmpty | stopNotifyFull | empty
  | returnPush | returnOther =>
      exact ⟨bounded.data, bounded.move trivial⟩

/-- Every reachable queue is within its bounds. -/
theorem of_reaches
    {capacity : Nat}
    {observed : List (Obs Thread T)}
    (reached :
      (machine Thread T capacity).ReachesBy EmptyOut observed state) :
    Bounded state :=
  reached.invariant
    (fun _ state => Bounded state)
    {
      data := Nat.zero_le _
      phases := by
        intro thread
        trivial
    }
    (fun before bounded _ taken =>
      bounded.step (BlankOuts.of_reaches before) (Step.of_step? taken))

end Bounded

/-- Only a `drain` empties the deque. -/
theorem Step.data_ne_nil
    [DecidableEq Thread]
    {state next : State Thread T}
    {event : Event Thread T}
    {emitted : List (Obs Thread T)}
    (step : Step state event emitted next)
    (something : state.queue.data ≠ [])
    (notDraining : ∀ out, ¬ state.Draining event.thread out) :
    next.queue.data ≠ [] := by
  cases step with
  | call thread operation =>
      cases operation <;> exact something
  | insert | evict =>
      simp [State.insert]
  | swap thread out draining =>
      exact (notDraining out draining).elim
  | _ =>
      exact something

/-! ## `drain` gives up only after a stop -/

/-- A `drain()` call that returns false has seen `stopped_`. -/
def ExhaustedStopped (state : State Thread T) : Prop :=
  ∀ thread out,
    state.phase thread = .drainReturning false out →
    state.queue.stopped = true

namespace ExhaustedStopped

variable [DecidableEq Thread] {state : State Thread T}

/-- Every step keeps the link between giving up and the stop. -/
theorem step
    {event : Event Thread T}
    {emitted : List (Obs Thread T)}
    {next : State Thread T}
    (exhausted : ExhaustedStopped state)
    (step : Step state event emitted next) :
    ExhaustedStopped next := by
  intro thread out returning
  by_cases other : thread ≠ event.thread
  · rw [step.phase_other other] at returning
    exact step.stopped_mono (exhausted thread out returning)
  · rw [not_not] at other
    subst other
    cases step with
    | call mover operation =>
        cases operation <;>
          simp [State.begin, Event.thread] at returning
    | insert mover item | evict mover item oldest rest =>
        simp only [State.insert, State.phase_moveTo, Event.thread,
          Function.update_self, State.afterInsert] at returning
        split at returning <;> cases returning
    | exhaust mover out draining free nothing stopped =>
        exact stopped
    | wakeNotFull | wakeNotEmpty =>
        exact exhausted _ out returning
    | _ =>
        simp [Event.thread] at returning

/-- In every reachable state a drain that gives up has seen the stop. -/
theorem of_reaches
    {capacity : Nat}
    {allowed : State Thread T → Event Thread T → Prop}
    {observed : List (Obs Thread T)}
    (reached :
      (machine Thread T capacity).ReachesBy allowed observed state) :
    ExhaustedStopped state :=
  reached.invariant
    (fun _ state => ExhaustedStopped state)
    (by
      intro thread out returning
      cases returning)
    (fun _ exhausted _ taken => exhausted.step (Step.of_step? taken))

end ExhaustedStopped

/-! ## Undefined behaviour -/

/-- With room for one item, `pop_front` is never called on an empty deque. -/
def Defined (state : State Thread T) : Prop :=
  ∀ thread item, state.phase thread ≠ .undefined item

namespace Defined

variable [DecidableEq Thread] {state : State Thread T}

/-- Every step of a queue with a positive capacity is defined. -/
theorem step
    {event : Event Thread T}
    {emitted : List (Obs Thread T)}
    {next : State Thread T}
    (defined : Defined state)
    (positive : 0 < state.queue.capacity)
    (step : Step state event emitted next) :
    Defined next := by
  intro thread item isUndefined
  by_cases other : thread ≠ event.thread
  · rw [step.phase_other other] at isUndefined
    exact defined thread item isUndefined
  · rw [not_not] at other
    subst other
    cases step with
    | call mover operation =>
        cases operation <;>
          simp [State.begin, Event.thread] at isUndefined
    | undefined mover pending deciding noCapacity =>
        exact Nat.ne_of_gt positive noCapacity
    | insert mover pending | evict mover pending oldest rest =>
        simp only [State.insert, State.phase_moveTo, Event.thread,
          Function.update_self, State.afterInsert] at isUndefined
        split at isUndefined <;> cases isUndefined
    | wakeNotFull | wakeNotEmpty =>
        exact defined _ item isUndefined
    | _ =>
        simp [Event.thread] at isUndefined

/-- No reachable state of a queue with a positive capacity is undefined. -/
theorem of_reaches
    {capacity : Nat}
    {allowed : State Thread T → Event Thread T → Prop}
    {observed : List (Obs Thread T)}
    (positive : 0 < capacity)
    (reached :
      (machine Thread T capacity).ReachesBy allowed observed state) :
    Defined state :=
  reached.invariant
    (fun _ state => Defined state)
    (by
      intro thread item isUndefined
      cases isUndefined)
    (fun before defined _ taken =>
      defined.step (by rwa [capacity_of_reaches before])
        (Step.of_step? taken))

end Defined

/-! ## Results of `push` -/

/-- The item and the result of a `push` after its last critical section. -/
def Phase.result? : Phase Thread T → Option (Item Thread T × Nat)
  | .pushNotifying item undelivered | .pushReturning item undelivered =>
      some (item, undelivered)
  | _ => none

/-- Results are the decided ones, and a push that reports no loss inserted. -/
structure Reported
    (observed : List (Obs Thread T))
    (state : State Thread T) : Prop where
  pending :
    ∀ thread result,
      (state.phase thread).result? = some result →
      result ∈ decided observed
  returned :
    ∀ item undelivered,
      .returned item undelivered ∈ observed →
      (item, undelivered) ∈ decided observed
  inserted :
    ∀ item,
      (item, 0) ∈ decided observed →
      item ∈ inserted observed

namespace Reported

variable
  [DecidableEq Thread]
  {observed emitted : List (Obs Thread T)}
  {state next : State Thread T}

/-- What the mover decides or returns is on record, the rest is unchanged. -/
private theorem extend
    {event : Event Thread T}
    (reported : Reported observed state)
    (step : Step state event emitted next)
    (mover :
      ∀ result,
        (next.phase event.thread).result? = some result →
        (state.phase event.thread).result? = some result ∨
          result ∈ decided emitted)
    (returning :
      ∀ item undelivered,
        .returned item undelivered ∈ emitted →
        (state.phase event.thread).result? = some (item, undelivered))
    (entering :
      ∀ item,
        (item, 0) ∈ decided emitted →
        item ∈ Queue.inserted emitted) :
    Reported (observed ++ emitted) next := by
  refine {
    pending := ?_
    returned := ?_
    inserted := ?_
  }
  · intro thread result isResult
    rw [decided_append, List.mem_append]
    by_cases other : thread ≠ event.thread
    · rw [step.phase_other other] at isResult
      exact Or.inl (reported.pending thread result isResult)
    · rw [not_not] at other
      subst other
      rcases mover result isResult with before | now
      · exact Or.inl (reported.pending _ result before)
      · exact Or.inr now
  · intro item undelivered isReturned
    rw [decided_append, List.mem_append]
    rcases List.mem_append.mp isReturned with before | now
    · exact Or.inl (reported.returned item undelivered before)
    · exact Or.inl
        (reported.pending _ _ (returning item undelivered now))
  · intro item isDecided
    rw [decided_append, List.mem_append] at isDecided
    rw [inserted_append, List.mem_append]
    rcases isDecided with before | now
    · exact Or.inl (reported.inserted item before)
    · exact Or.inr (entering item now)

omit [DecidableEq Thread] in
private theorem result?_afterInsert
    (item : Item Thread T)
    (undelivered : Nat)
    (wasEmpty : Bool) :
    (State.afterInsert item undelivered wasEmpty).result? =
      some (item, undelivered) := by
  cases wasEmpty <;> rfl

/-- Every step keeps results and record in agreement. -/
theorem step
    {event : Event Thread T}
    (reported : Reported observed state)
    (step : Step state event emitted next) :
    Reported (observed ++ emitted) next := by
  refine reported.extend step ?_ ?_ ?_
  · intro result isResult
    cases step with
    | call mover operation =>
        cases operation <;>
          simp [State.begin, Event.thread, Phase.result?] at isResult
    | refuse mover item =>
        right
        simp only [State.phase_moveTo, Event.thread,
          Function.update_self] at isResult
        cases isResult
        simp [decided]
    | insert mover item | evict mover item oldest rest =>
        right
        simp only [State.insert, State.phase_moveTo, Event.thread,
          Function.update_self, result?_afterInsert] at isResult
        cases isResult
        simp [decided]
    | notifyOne mover chosen item undelivered notEmpty notifying =>
        left
        simpa [Event.thread, notifying, Phase.result?] using isResult
    | wakeNotFull | wakeNotEmpty =>
        exact Or.inl isResult
    | _ =>
        simp [Event.thread, Phase.result?] at isResult
  · intro item undelivered isReturned
    cases step with
    | returnPush mover returned result returning =>
        simp only [List.mem_singleton, Obs.returned.injEq] at isReturned
        obtain ⟨rfl, rfl⟩ := isReturned
        simp [Event.thread, returning, Phase.result?]
    | _ =>
        simp at isReturned
  · intro item isDecided
    cases step with
    | insert mover entered =>
        simpa [decided, Queue.inserted, eq_comm] using isDecided
    | _ =>
        simp [decided] at isDecided

/-- In every reachable state results and record agree. -/
theorem of_reaches
    {capacity : Nat}
    {allowed : State Thread T → Event Thread T → Prop}
    (reached :
      (machine Thread T capacity).ReachesBy allowed observed state) :
    Reported observed state :=
  reached.invariant Reported
    {
      pending := by
        intro thread result isResult
        cases isResult
      returned := by simp
      inserted := by simp [decided]
    }
    (fun _ reported _ taken => reported.step (Step.of_step? taken))

end Reported

/-! ## Why a step loses an item or stops the queue -/

section Causes

variable
  [DecidableEq Thread]
  {state next : State Thread T}
  {event : Event Thread T}
  {emitted : List (Obs Thread T)}

/-- A push is in front of its first critical section since its call. -/
theorem Step.push_origin
    (step : Step state event emitted next)
    {thread : Thread}
    {item : Item Thread T}
    {policy : OverflowPolicy}
    (phase : next.phase thread = .push item policy) :
    state.phase thread = .push item policy ∨
      ∃ value, event = .call thread (.push value policy) := by
  by_cases other : thread ≠ event.thread
  · rw [step.phase_other other] at phase
    exact Or.inl phase
  · rw [not_not] at other
    subst other
    cases step with
    | call mover operation =>
        cases operation with
        | push value used =>
            simp only [State.begin, State.phase_moveTo, Event.thread,
              Function.update_self, Phase.push.injEq] at phase
            obtain ⟨_, rfl⟩ := phase
            exact Or.inr ⟨value, rfl⟩
        | _ =>
            simp [State.begin, Event.thread] at phase
    | insert mover pending | evict mover pending oldest rest =>
        simp only [State.insert, State.phase_moveTo, Event.thread,
          Function.update_self, State.afterInsert] at phase
        split at phase <;> cases phase
    | wakeNotFull | wakeNotEmpty =>
        exact Or.inl phase
    | _ =>
        simp [Event.thread] at phase

/-- A refusal is by a push that drops the newest, or by one of a stopped queue. -/
theorem Step.refused_cause
    (step : Step state event emitted next)
    (loses : refused emitted ≠ []) :
    ∃ thread,
      (state.phase thread).member? = some .push ∧
        ((∃ item, state.phase thread = .push item .dropNewest) ∨
          state.queue.stopped = true) := by
  cases step with
  | refuse thread item deciding free reason =>
      exact ⟨thread, deciding.inside_push,
        reason.imp_left fun full => ⟨item, full.1⟩⟩
  | _ =>
      simp [refused] at loses

/-- An eviction is one by a push that drops the oldest. -/
theorem Step.evicted_cause
    (step : Step state event emitted next)
    (loses : evicted emitted ≠ []) :
    ∃ thread item, state.phase thread = .push item .dropOldest := by
  cases step with
  | evict thread item oldest rest phase =>
      exact ⟨thread, item, phase⟩
  | _ =>
      simp [evicted] at loses

/-- Only a `stop()` stops the queue. -/
theorem Step.stopped_cause
    (step : Step state event emitted next)
    (stopped : next.queue.stopped = true) :
    state.queue.stopped = true ∨
      ∃ thread, state.phase thread = .stop := by
  cases step with
  | call thread operation =>
      cases operation <;> exact Or.inl stopped
  | stop thread stopping =>
      exact Or.inr ⟨thread, stopping⟩
  | _ =>
      exact Or.inl stopped

/-- An answer of `empty()` was given before, or it is about the present deque. -/
theorem Step.emptyReturning_cause
    (step : Step state event emitted next)
    {thread : Thread}
    {result : Bool}
    (returning : next.phase thread = .emptyReturning result) :
    state.phase thread = .emptyReturning result ∨
      (state.phase thread = .empty ∧
        result = state.queue.empty ∧
        next.queue = state.queue ∧
        emitted = []) := by
  by_cases other : thread ≠ event.thread
  · rw [step.phase_other other] at returning
    exact Or.inl returning
  · rw [not_not] at other
    subst other
    cases step with
    | empty mover checking =>
        simp only [State.phase_moveTo, Event.thread,
          Function.update_self, Phase.emptyReturning.injEq] at returning
        exact Or.inr ⟨checking, returning.symm, rfl, rfl⟩
    | wakeNotFull | wakeNotEmpty =>
        exact Or.inl returning
    | call mover operation =>
        cases operation <;>
          simp [State.begin, Event.thread] at returning
    | insert mover item | evict mover item =>
        simp only [State.insert, State.phase_moveTo, Event.thread,
          Function.update_self, State.afterInsert] at returning
        split at returning <;> cases returning
    | _ =>
        simp [Event.thread] at returning

/-- A `push` call brings its value as an undecided item. -/
theorem Step.undecided_of_push
    {thread : Thread}
    {value : T}
    {policy : OverflowPolicy}
    (step :
      Step state (.call thread (.push value policy)) emitted next) :
    emitted = [] ∧
      (state.phase thread).undecided? = none ∧
      (next.phase thread).undecided? =
        some ⟨thread, state.pushes thread, value⟩ := by
  cases step with
  | call mover operation idle =>
      simp [State.begin, idle, Phase.undecided?]

omit [DecidableEq Thread] in
/-- An inserted item is decided. -/
private theorem undecided?_afterInsert
    (item : Item Thread T)
    (undelivered : Nat)
    (wasEmpty : Bool) :
    (State.afterInsert item undelivered wasEmpty).undecided? = none := by
  cases wasEmpty <;> rfl

/--
Every other step leaves the undecided items alone, or it inserts or refuses
one of them.
-/
theorem Step.undecided_cases
    (positive : 0 < state.queue.capacity)
    (step : Step state event emitted next)
    (noPush :
      ∀ thread value policy,
        event ≠ .call thread (.push value policy)) :
    (inserted emitted = [] ∧
        ∀ thread,
          (next.phase thread).undecided? =
            (state.phase thread).undecided?) ∨
      ∃ thread item,
        (inserted emitted = [item] ∨ refused emitted = [item]) ∧
          (state.phase thread).undecided? = some item ∧
          (next.phase thread).undecided? = none ∧
          ∀ other,
            other ≠ thread →
            (next.phase other).undecided? =
              (state.phase other).undecided? := by
  have others :
      ∀ other,
        other ≠ event.thread →
        (next.phase other).undecided? =
          (state.phase other).undecided? :=
    fun other different => by rw [step.phase_other different]
  have quiet
      (mover :
        (next.phase event.thread).undecided? =
          (state.phase event.thread).undecided?) :
      ∀ thread,
        (next.phase thread).undecided? =
          (state.phase thread).undecided? := by
    intro thread
    by_cases same : thread = event.thread
    · rw [same, mover]
    · exact others thread same
  cases step with
  | call thread operation idle =>
      refine Or.inl ⟨rfl, quiet ?_⟩
      cases operation with
      | push value policy =>
          exact (noPush thread value policy rfl).elim
      | drain | stop | empty =>
          simp [State.begin, Event.thread, idle, Phase.undecided?]
  | refuse thread item deciding =>
      exact Or.inr ⟨thread, item, Or.inr rfl, deciding.undecided,
        by simp [Phase.undecided?], others⟩
  | insert thread item deciding =>
      refine Or.inr ⟨thread, item, Or.inl rfl, deciding.undecided,
        ?_, others⟩
      simp [State.insert, undecided?_afterInsert]
  | evict thread item oldest rest deciding =>
      refine Or.inr ⟨thread, item, Or.inl rfl, ?_, ?_, others⟩
      · simp [deciding, Phase.undecided?]
      · simp [State.insert, undecided?_afterInsert]
  | undefined thread item deciding noCapacity =>
      omega
  | block thread item deciding =>
      refine Or.inl ⟨rfl, quiet ?_⟩
      rw [Event.thread, deciding.undecided]
      simp [Phase.undecided?]
  | drainBlock thread out draining | exhaust thread out draining
  | swap thread out draining =>
      refine Or.inl ⟨rfl, quiet ?_⟩
      rcases draining with phase | ⟨phase, _⟩ <;>
        simp [Event.thread, phase, Phase.undecided?]
  | wakeNotFull | wakeNotEmpty =>
      exact Or.inl ⟨rfl, fun _ => rfl⟩
  | returnOther thread returning =>
      refine Or.inl ⟨rfl, quiet ?_⟩
      rcases returning with ⟨result, out, phase⟩ | phase |
          ⟨result, phase⟩ <;>
        simp [Event.thread, phase, Phase.undecided?]
  | sleepNotFull thread item phase
  | notifyOne thread chosen item undelivered notEmpty phase
  | sleepNotEmpty thread out phase | drainNotify thread out phase
  | stop thread phase | stopNotifyEmpty thread phase
  | stopNotifyFull thread phase | empty thread phase
  | returnPush thread item undelivered phase =>
      refine Or.inl ⟨rfl, quiet ?_⟩
      simp [Event.thread, phase, Phase.undecided?]

/--
Outside the calls of `push` a step decides one item at most: it inserts or
refuses one that was undecided.
-/
theorem Step.decided_cases
    (positive : 0 < state.queue.capacity)
    (step : Step state event emitted next)
    (noPush :
      ∀ thread value policy,
        event ≠ .call thread (.push value policy)) :
    (decided emitted = [] ∧
        inserted emitted = [] ∧
        ∀ thread,
          (next.phase thread).undecided? =
            (state.phase thread).undecided?) ∨
      ∃ thread item undelivered,
        decided emitted = [(item, undelivered)] ∧
          (inserted emitted = [item] ∨
            inserted emitted = [] ∧ refused emitted = [item]) ∧
          (state.phase thread).undecided? = some item ∧
          (next.phase thread).undecided? = none ∧
          ∀ other,
            other ≠ thread →
            (next.phase other).undecided? =
              (state.phase other).undecided? := by
  rcases step.undecided_cases positive noPush with
    ⟨nothing, same⟩ | ⟨thread, item, recorded, before, after, others⟩
  · refine Or.inl ⟨?_, nothing, same⟩
    cases step with
    | refuse thread item deciding =>
        have kept := same thread
        rw [deciding.undecided] at kept
        simp [Phase.undecided?] at kept
    | insert | evict =>
        simp [inserted] at nothing
    | _ =>
        rfl
  · refine Or.inr ⟨thread, item, ?_⟩
    cases step with
    | refuse =>
        obtain nothing | refused := recorded
        · cases nothing
        · cases refused
          exact ⟨1, rfl, Or.inr ⟨rfl, rfl⟩, before, after, others⟩
    | insert | evict =>
        obtain inserted | nothing := recorded
        · cases inserted
          exact ⟨_, rfl, Or.inl rfl, before, after, others⟩
        · cases nothing
    | _ =>
        rcases recorded with nothing | nothing <;> cases nothing

end Causes

/-! ## The load -/

/-- What a thread inside the queue adds to the load. -/
def Phase.weight : Phase Thread T → Nat
  | .push _ _ | .pushBlocking _ | .pushWaiting _ | .undefined _ => 1
  | .pushNotifying _ undelivered | .pushReturning _ undelivered =>
      undelivered
  | .drainNotifying out | .drainReturning true out => out.length
  | _ => 0

section Load

variable [Fintype Thread]

/-- Queued items, undecided items, unreturned results, unreturned batches. -/
def load (state : State Thread T) : Nat :=
  state.queue.data.length +
    ∑ thread, (state.phase thread).weight

variable {state next : State Thread T}

/-- Moving one thread changes the load by what that thread contributes. -/
theorem load_moveTo
    [DecidableEq Thread]
    (state : State Thread T)
    (thread : Thread)
    (phase : Phase Thread T) :
    load (state.moveTo thread phase) + (state.phase thread).weight =
      load state + phase.weight := by
  have balance :=
    sum_change
      (fun other => (state.phase other).weight)
      (fun other =>
        ((state.moveTo thread phase).phase other).weight)
      thread
      (fun other different => by simp [different])
  simp only [State.phase_moveTo, Function.update_self] at balance
  simp only [load, State.queue_moveTo, State.phase_moveTo]
  omega

/-- What the event adds to the load. -/
def Event.issued : Event Thread T → Nat
  | .call _ (.push _ _) => 1
  | _ => 0

/-- What the event removes from the load of a state. -/
def Event.settled (state : State Thread T) : Event Thread T → Nat
  | .ret thread => (state.phase thread).weight
  | _ => 0

omit [Fintype Thread] in
private theorem weight_afterInsert
    (item : Item Thread T)
    (undelivered : Nat)
    (wasEmpty : Bool) :
    (State.afterInsert item undelivered wasEmpty).weight =
      undelivered := by
  cases wasEmpty <;> rfl

omit [Fintype Thread] in
private theorem weight_of_deciding
    {thread : Thread}
    {item : Item Thread T}
    (deciding : state.Deciding thread item) :
    (state.phase thread).weight = 1 := by
  rcases deciding with ⟨policy, phase⟩ | ⟨phase, _⟩ <;>
    simp [phase, Phase.weight]

omit [Fintype Thread] in
private theorem weight_of_draining
    {thread : Thread}
    {out : List (Item Thread T)}
    (draining : state.Draining thread out) :
    (state.phase thread).weight = 0 := by
  rcases draining with phase | ⟨phase, _⟩ <;>
    simp [phase, Phase.weight]

/-- A step of one thread changes the load by what that thread contributes. -/
private theorem Step.load_eq_of_mover
    [DecidableEq Thread]
    {event : Event Thread T}
    {emitted : List (Obs Thread T)}
    (step : Step state event emitted next)
    (mover :
      next.queue.data.length + (next.phase event.thread).weight +
          event.settled state =
        state.queue.data.length + (state.phase event.thread).weight +
          event.issued) :
    load next + event.settled state = load state + event.issued := by
  have balance :
      (∑ thread, (next.phase thread).weight) +
          (state.phase event.thread).weight =
        (∑ thread, (state.phase thread).weight) +
          (next.phase event.thread).weight :=
    sum_change
      (fun thread => (state.phase thread).weight)
      (fun thread => (next.phase thread).weight)
      event.thread
      (fun thread other => by rw [step.phase_other other])
  unfold load
  omega

/-- Only calls and returns change the load. -/
theorem Step.load_eq
    [DecidableEq Thread]
    {event : Event Thread T}
    {emitted : List (Obs Thread T)}
    (blank : BlankOuts state)
    (step : Step state event emitted next) :
    load next + event.settled state = load state + event.issued := by
  apply step.load_eq_of_mover
  cases step with
  | call thread operation idle =>
      cases operation <;>
        simp only [State.begin, State.phase_moveTo, Event.thread,
          Function.update_self, idle] <;>
        rfl
  | refuse thread item deciding | block thread item deciding
  | undefined thread item deciding =>
      simp only [State.phase_moveTo, Event.thread,
        Function.update_self, weight_of_deciding deciding]
      rfl
  | insert thread item deciding =>
      simp only [State.insert, State.phase_moveTo, Event.thread,
        Function.update_self, weight_of_deciding deciding,
        weight_afterInsert, List.length_append]
      rfl
  | evict thread item oldest rest phase free contents =>
      simp only [State.insert, State.phase_moveTo, Event.thread,
        Function.update_self, phase, contents, weight_afterInsert,
        List.length_append, List.length_cons]
      rfl
  | drainBlock thread out draining | exhaust thread out draining =>
      simp only [State.phase_moveTo, Event.thread,
        Function.update_self, weight_of_draining draining]
      rfl
  | swap thread out draining =>
      simp only [State.phase_moveTo, Event.thread,
        Function.update_self, weight_of_draining draining,
        blank.out_eq_nil draining]
      exact Nat.zero_add _
  | wakeNotFull | wakeNotEmpty =>
      rfl
  | sleepNotFull thread item phase
  | notifyOne thread chosen item undelivered notEmpty phase
  | sleepNotEmpty thread out phase | drainNotify thread out phase
  | stop thread phase | stopNotifyEmpty thread phase
  | stopNotifyFull thread phase | empty thread phase =>
      simp only [State.phase_moveTo, Event.thread,
        Function.update_self, phase]
      rfl
  | returnPush | returnOther =>
      simp only [State.phase_moveTo, State.queue_moveTo, Event.thread,
        Event.settled, Event.issued, Function.update_self]
      rfl

end Load

end ConcLogger.Queue
