import ConcLogger.Queue.Invariant

namespace ConcLogger.Queue

open Concurrency

/-!
# No wakeup is lost

`push` notifies `not_empty_` only after an insertion into an empty deque, and
every notification is sent after `mutex_` has been released.  The coverage
invariants below say that this is enough: whenever a sleeper's condition
holds, a notification is still owed to its condition variable, or, for
`not_empty_`, a woken `drain()` caller is about to look for itself.
-/

variable {Thread T : Type}

/-! ## Buffers handed to `drain` -/

/-- The deque that a `drain()` call still holds for its swap is empty. -/
def Phase.BlankOut : Phase Thread T → Prop
  | .drain out | .drainBlocking out | .drainWaiting out
  | .drainReturning false out => out = []
  | _ => True

/-- Every `drain()` caller came with an empty deque. -/
def BlankOuts (state : State Thread T) : Prop :=
  ∀ thread, (state.phase thread).BlankOut

namespace BlankOuts

variable {state : State Thread T}

/-- The deque that `drain` is about to swap in is empty. -/
theorem out_eq_nil
    (blank : BlankOuts state)
    {thread : Thread}
    {out : List (Item Thread T)}
    (draining : state.Draining thread out) :
    out = [] := by
  have atThread := blank thread
  rcases draining with phase | ⟨phase, _⟩ <;>
    simpa [phase, Phase.BlankOut] using atThread

variable [DecidableEq Thread]

private theorem move
    (blank : BlankOuts state)
    {thread : Thread}
    {phase : Phase Thread T}
    (moved : phase.BlankOut) :
    BlankOuts (state.moveTo thread phase) :=
  forall_update
    (fun _ (phase : Phase Thread T) => phase.BlankOut)
    (fun other _ => blank other) moved

/-- Steps keep the deques of waiting `drain()` callers empty. -/
theorem step
    {event : Event Thread T}
    {emitted : List (Obs Thread T)}
    {next : State Thread T}
    (blank : BlankOuts state)
    (permitted : EmptyOut state event)
    (step : Step state event emitted next) :
    BlankOuts next := by
  cases step with
  | call thread operation =>
      cases operation with
      | drain out =>
          exact blank.move permitted
      | push | stop | empty =>
          exact blank.move trivial
  | drainBlock thread out draining | exhaust thread out draining =>
      exact blank.move (blank.out_eq_nil draining)
  | sleepNotEmpty thread out phase =>
      apply blank.move
      simpa [phase, Phase.BlankOut] using blank thread
  | insert thread item | evict thread item =>
      apply blank.move
      unfold State.afterInsert
      split <;> trivial
  | refuse | block | undefined | sleepNotFull | notifyOne | swap
  | drainNotify | stop | stopNotifyEmpty | stopNotifyFull | empty
  | returnPush | returnOther =>
      exact blank.move trivial
  | wakeNotFull | wakeNotEmpty =>
      exact blank

/-- Every state reached with empty `out` arguments has blank buffers. -/
theorem of_reaches
    {capacity : Nat}
    {observed : List (Obs Thread T)}
    (reached :
      (machine Thread T capacity).ReachesBy EmptyOut observed state) :
    BlankOuts state :=
  reached.invariant
    (fun _ state => BlankOuts state)
    (by
      intro thread
      trivial)
    (fun _ blank permitted taken =>
      blank.step permitted (Step.of_step? taken))

end BlankOuts

/-! ## Promises of notifications -/

variable {state : State Thread T}

/-- A thread that decides its item owes no notification. -/
private theorem deciding_owes_nothing
    {thread : Thread}
    {item : Item Thread T}
    (deciding : state.Deciding thread item) :
    ¬ (state.phase thread).OwesNotFull ∧
      ¬ (state.phase thread).OwesNotEmpty ∧
      (∀ out, state.phase thread ≠ .drainWaiting out) ∧
      state.phase thread ≠ .stopNotifyingEmpty := by
  rcases deciding with ⟨policy, phase⟩ | ⟨phase, _⟩ <;>
    simp [phase, Phase.OwesNotFull, Phase.OwesNotEmpty]

/-- A thread that drains owes no notification. -/
private theorem draining_owes_nothing
    {thread : Thread}
    {out : List (Item Thread T)}
    (draining : state.Draining thread out) :
    ¬ (state.phase thread).OwesNotFull ∧
      ¬ (state.phase thread).OwesNotEmpty ∧
      state.phase thread ≠ .stopNotifyingEmpty := by
  rcases draining with phase | ⟨phase, _⟩ <;>
    simp [phase, Phase.OwesNotFull, Phase.OwesNotEmpty]

/-- A thread that is about to return owes no notification. -/
private theorem returning_owes_nothing
    {thread : Thread}
    (returning :
      (∃ result out, state.phase thread = .drainReturning result out) ∨
        state.phase thread = .stopReturning ∨
        ∃ result, state.phase thread = .emptyReturning result) :
    ¬ (state.phase thread).OwesNotFull ∧
      ¬ (state.phase thread).OwesNotEmpty ∧
      (∀ out, state.phase thread ≠ .drainWaiting out) ∧
      state.phase thread ≠ .stopNotifyingEmpty := by
  rcases returning with ⟨_, _, phase⟩ | phase | ⟨_, phase⟩ <;>
    simp [phase, Phase.OwesNotFull, Phase.OwesNotEmpty]

/-- Some thread still has to notify `not_full_`. -/
def NotFullPromised (state : State Thread T) : Prop :=
  ∃ thread, (state.phase thread).OwesNotFull

/-- Some thread still has to notify `not_empty_`. -/
def NotEmptyPromised (state : State Thread T) : Prop :=
  ∃ thread, (state.phase thread).OwesNotEmpty

/-- Some `drain()` caller was woken and has yet to evaluate its predicate. -/
def DrainerWoken (state : State Thread T) : Prop :=
  ∃ thread out,
    state.phase thread = .drainWaiting out ∧
      thread ∉ state.notEmpty.waiters

/-- Some `stop()` still has to notify `not_empty_`. -/
def StopPromised (state : State Thread T) : Prop :=
  ∃ thread, state.phase thread = .stopNotifyingEmpty

/-- Sleepers on `not_full_` are covered while there is room or a stop. -/
def NotFullCovered (state : State Thread T) : Prop :=
  state.notFull.Covered
    (state.queue.data.length < state.queue.capacity ∨
      state.queue.stopped = true)
    (NotFullPromised state)

/-- Sleepers on `not_empty_` are covered while the deque is not empty. -/
def NotEmptyCovered (state : State Thread T) : Prop :=
  state.notEmpty.Covered
    (state.queue.data ≠ [])
    (NotEmptyPromised state ∨ DrainerWoken state)

/-- Sleepers on `not_empty_` are covered by `stop()` once it has run. -/
def StopCovered (state : State Thread T) : Prop :=
  state.notEmpty.Covered
    (state.queue.stopped = true)
    (StopPromised state)

variable [DecidableEq Thread]

/-! ## One step keeps the coverage -/

/-- A move of a thread that keeps its debt keeps `not_full_` covered. -/
private theorem NotFullCovered.keep
    (covered : NotFullCovered state)
    (thread : Thread)
    (phase : Phase Thread T)
    (keeps : (state.phase thread).OwesNotFull → phase.OwesNotFull) :
    state.notFull.Covered
      (state.queue.data.length < state.queue.capacity ∨
        state.queue.stopped = true)
      (NotFullPromised (state.moveTo thread phase)) := by
  refine covered.frame (Finset.Subset.refl _) id ?_
  intro promised
  exact exists_update
    (fun _ (phase : Phase Thread T) => phase.OwesNotFull)
    promised keeps

/-- Every step keeps the sleepers on `not_full_` covered. -/
theorem NotFullCovered.step
    {event : Event Thread T}
    {emitted : List (Obs Thread T)}
    {next : State Thread T}
    (covered : NotFullCovered state)
    (sound : Sound state)
    (step : Step state event emitted next) :
    NotFullCovered next := by
  cases step with
  | call thread operation idle =>
      cases operation <;>
        exact covered.keep _ _ (by simp [idle, Phase.OwesNotFull])
  | refuse thread item deciding | block thread item deciding
  | undefined thread item deciding =>
      exact covered.keep _ _ fun owes =>
        ((deciding_owes_nothing deciding).1 owes).elim
  | insert thread item deciding free room =>
      have kept :=
        covered.keep thread
          (State.afterInsert item 0 state.queue.data.isEmpty)
          fun owes => ((deciding_owes_nothing deciding).1 owes).elim
      refine kept.frame (Finset.Subset.refl _) ?_ id
      rintro (_ | stopped)
      · exact Or.inl room
      · exact Or.inr stopped
  | evict thread item oldest rest phase free contents full =>
      have kept :=
        covered.keep thread
          (State.afterInsert item 1 rest.isEmpty)
          (by simp [phase, Phase.OwesNotFull])
      refine kept.frame (Finset.Subset.refl _) ?_ id
      -- The eviction makes room for exactly the new item.
      intro ready
      simpa [State.insert, contents] using ready
  | sleepNotFull thread item phase =>
      obtain ⟨full, running⟩ :=
        (sound thread).pushBlocked item phase
      refine Condvar.Covered.of_not_ready ?_
      simp [running]
      omega
  | notifyOne thread chosen item undelivered notEmpty phase =>
      exact covered.keep _ _ (by simp [phase, Phase.OwesNotFull])
  | drainBlock thread out draining | exhaust thread out draining =>
      exact covered.keep _ _ fun owes =>
        ((draining_owes_nothing draining).1 owes).elim
  | swap thread out =>
      refine Condvar.Covered.of_promised ?_
      exact exists_update_self
        (fun _ (phase : Phase Thread T) => phase.OwesNotFull)
        trivial
  | sleepNotEmpty thread out phase =>
      exact covered.keep _ _ (by simp [phase, Phase.OwesNotFull])
  | drainNotify | stopNotifyFull =>
      exact Condvar.Covered.notifyAll state.notFull
  | stop thread =>
      refine Condvar.Covered.of_promised ?_
      exact exists_update_self
        (fun _ (phase : Phase Thread T) => phase.OwesNotFull)
        trivial
  | stopNotifyEmpty thread =>
      exact covered.keep _ _ fun _ => trivial
  | empty thread phase =>
      exact covered.keep _ _ (by simp [phase, Phase.OwesNotFull])
  | wakeNotFull thread =>
      refine covered.frame ?_ id id
      intro other asleep
      exact (Condvar.mem_waiters_rouse.mp asleep).2
  | wakeNotEmpty =>
      exact covered
  | returnPush thread item undelivered phase =>
      exact covered.keep _ _ (by simp [phase, Phase.OwesNotFull])
  | returnOther thread returning =>
      exact covered.keep _ _ fun owes =>
        ((returning_owes_nothing returning).1 owes).elim

/-- A move of a thread that keeps its debt keeps `not_empty_` covered. -/
private theorem NotEmptyCovered.keep
    (covered : NotEmptyCovered state)
    (thread : Thread)
    (phase : Phase Thread T)
    (keeps : (state.phase thread).OwesNotEmpty → phase.OwesNotEmpty)
    (notWoken : ∀ out, state.phase thread ≠ .drainWaiting out) :
    NotEmptyCovered (state.moveTo thread phase) := by
  refine covered.frame (Finset.Subset.refl _) id ?_
  rintro (promised | ⟨woken, out, waiting, awake⟩)
  · exact Or.inl
      (exists_update
        (fun _ (phase : Phase Thread T) => phase.OwesNotEmpty)
        promised keeps)
  · have different : woken ≠ thread := by
      rintro rfl
      exact notWoken out waiting
    exact Or.inr ⟨woken, out, by simpa [different] using waiting, awake⟩

/-- An insertion keeps `not_empty_` covered, whatever it evicted. -/
private theorem NotEmptyCovered.insert
    (covered : NotEmptyCovered state)
    {thread : Thread}
    {item : Item Thread T}
    {undelivered : Nat}
    {contents : List (Item Thread T)}
    (keeps : ¬ (state.phase thread).OwesNotEmpty)
    (notWoken : ∀ out, state.phase thread ≠ .drainWaiting out)
    (smaller : contents ≠ [] → state.queue.data ≠ []) :
    NotEmptyCovered
      (state.insert thread item undelivered contents) := by
  by_cases wasEmpty : contents = []
  · -- The inserting thread itself owes the notification.
    subst wasEmpty
    refine Condvar.Covered.of_promised (Or.inl ?_)
    exact exists_update_self
      (fun _ (phase : Phase Thread T) => phase.OwesNotEmpty)
      trivial
  · -- The deque was not empty, so somebody else already owed one.
    have kept :=
      covered.keep thread
        (State.afterInsert item undelivered contents.isEmpty)
        (fun owes => (keeps owes).elim) notWoken
    refine kept.frame (Finset.Subset.refl _) ?_ id
    intro _
    exact smaller wasEmpty

/-- Every step keeps the sleepers on `not_empty_` covered. -/
theorem NotEmptyCovered.step
    {event : Event Thread T}
    {emitted : List (Obs Thread T)}
    {next : State Thread T}
    (covered : NotEmptyCovered state)
    (sound : Sound state)
    (blank : BlankOuts state)
    (step : Step state event emitted next) :
    NotEmptyCovered next := by
  cases step with
  | call thread operation idle =>
      cases operation <;>
        exact covered.keep _ _ (by simp [idle, Phase.OwesNotEmpty])
          (by simp [idle])
  | refuse thread item deciding | block thread item deciding
  | undefined thread item deciding =>
      obtain ⟨_, owesNothing, notWoken, _⟩ :=
        deciding_owes_nothing deciding
      exact covered.keep _ _ (fun owes => (owesNothing owes).elim) notWoken
  | insert thread item deciding =>
      obtain ⟨_, owesNothing, notWoken, _⟩ :=
        deciding_owes_nothing deciding
      exact covered.insert owesNothing notWoken id
  | evict thread item oldest rest phase free contents =>
      exact covered.insert (by simp [phase, Phase.OwesNotEmpty])
        (by simp [phase]) (fun _ => by simp [contents])
  | sleepNotFull thread item phase =>
      exact covered.keep _ _ (by simp [phase, Phase.OwesNotEmpty])
        (by simp [phase])
  | notifyOne thread chosen item undelivered notEmpty phase notified =>
      rcases Condvar.notifyOne?_cases notified with
        ⟨nobody, rfl⟩ | ⟨asleep, rfl⟩
      · intro sleeper asleep
        rw [nobody] at asleep
        simp at asleep
      · -- The chosen sleeper is now awake and will look for itself.
        obtain ⟨out, waiting⟩ := (sound chosen).asleepNotEmpty asleep
        have different : chosen ≠ thread := by
          rintro rfl
          rw [phase] at waiting
          cases waiting
        refine Condvar.Covered.of_promised (Or.inr ⟨chosen, out, ?_, ?_⟩)
        · simpa [different] using waiting
        · simp
  | drainBlock thread out draining free nothing
  | exhaust thread out draining free nothing =>
      exact Condvar.Covered.of_not_ready (by simp [nothing])
  | swap thread out draining =>
      have out_nil := blank.out_eq_nil draining
      exact Condvar.Covered.of_not_ready (by simp [out_nil])
  | sleepNotEmpty thread out phase =>
      have nothing := ((sound thread).drainBlocked out phase).1
      exact Condvar.Covered.of_not_ready (by simp [nothing])
  | drainNotify thread out phase =>
      exact covered.keep _ _ (by simp [phase, Phase.OwesNotEmpty])
        (by simp [phase])
  | stop thread =>
      refine Condvar.Covered.of_promised (Or.inl ?_)
      exact exists_update_self
        (fun _ (phase : Phase Thread T) => phase.OwesNotEmpty)
        trivial
  | stopNotifyEmpty =>
      exact Condvar.Covered.notifyAll state.notEmpty
  | stopNotifyFull thread phase =>
      exact covered.keep _ _ (by simp [phase, Phase.OwesNotEmpty])
        (by simp [phase])
  | empty thread phase =>
      exact covered.keep _ _ (by simp [phase, Phase.OwesNotEmpty])
        (by simp [phase])
  | wakeNotFull =>
      exact covered
  | wakeNotEmpty thread asleep =>
      obtain ⟨out, waiting⟩ := (sound thread).asleepNotEmpty asleep
      exact Condvar.Covered.of_promised
        (Or.inr ⟨thread, out, waiting, by simp⟩)
  | returnPush thread item undelivered phase =>
      exact covered.keep _ _ (by simp [phase, Phase.OwesNotEmpty])
        (by simp [phase])
  | returnOther thread returning =>
      obtain ⟨_, owesNothing, notWoken, _⟩ :=
        returning_owes_nothing returning
      exact covered.keep _ _ (fun owes => (owesNothing owes).elim) notWoken

/-- A move of a thread that owes no stop keeps the stop promise. -/
private theorem StopCovered.keep
    (covered : StopCovered state)
    (thread : Thread)
    (phase : Phase Thread T)
    (different : state.phase thread ≠ .stopNotifyingEmpty) :
    StopCovered (state.moveTo thread phase) := by
  refine covered.frame (Finset.Subset.refl _) id ?_
  intro promised
  exact exists_update
    (fun _ (phase : Phase Thread T) =>
      phase = .stopNotifyingEmpty)
    promised (fun owes => (different owes).elim)

/-- Every step keeps the sleepers on `not_empty_` covered against a stop. -/
theorem StopCovered.step
    {event : Event Thread T}
    {emitted : List (Obs Thread T)}
    {next : State Thread T}
    (covered : StopCovered state)
    (sound : Sound state)
    (step : Step state event emitted next) :
    StopCovered next := by
  cases step with
  | call thread operation idle =>
      cases operation <;> exact covered.keep _ _ (by simp [idle])
  | refuse thread item deciding | block thread item deciding
  | undefined thread item deciding | insert thread item deciding =>
      exact covered.keep _ _ (deciding_owes_nothing deciding).2.2.2
  | evict thread item oldest rest phase =>
      exact covered.keep _ _ (by simp [phase])
  | sleepNotFull thread item phase =>
      exact covered.keep _ _ (by simp [phase])
  | notifyOne thread chosen item undelivered notEmpty phase notified =>
      have kept :=
        covered.keep thread
          (.pushReturning item undelivered)
          (by simp [phase])
      exact kept.frame (Condvar.notifyOne?_subset notified) id id
  | drainBlock thread out draining | exhaust thread out draining
  | swap thread out draining =>
      exact covered.keep _ _ (draining_owes_nothing draining).2.2
  | sleepNotEmpty thread out phase =>
      have running := ((sound thread).drainBlocked out phase).2
      exact Condvar.Covered.of_not_ready (by simp [running])
  | drainNotify thread out phase =>
      exact covered.keep _ _ (by simp [phase])
  | stop thread =>
      refine Condvar.Covered.of_promised ?_
      exact exists_update_self
        (fun _ (phase : Phase Thread T) =>
          phase = .stopNotifyingEmpty)
        rfl
  | stopNotifyEmpty =>
      exact Condvar.Covered.notifyAll state.notEmpty
  | stopNotifyFull thread phase =>
      exact covered.keep _ _ (by simp [phase])
  | empty thread phase =>
      exact covered.keep _ _ (by simp [phase])
  | wakeNotFull =>
      exact covered
  | wakeNotEmpty thread =>
      refine covered.frame ?_ id id
      intro other asleep
      exact (Condvar.mem_waiters_rouse.mp asleep).2
  | returnPush thread item undelivered phase =>
      exact covered.keep _ _ (by simp [phase])
  | returnOther thread returning =>
      exact covered.keep _ _ (returning_owes_nothing returning).2.2.2

/-! ## Every reachable state is covered -/

section Reached

variable
  {capacity : Nat}
  {observed : List (Obs Thread T)}

/-- No blocked producer of a reachable state has lost its wakeup. -/
theorem NotFullCovered.of_reaches
    {allowed : State Thread T → Event Thread T → Prop}
    (reached :
      (machine Thread T capacity).ReachesBy allowed observed state) :
    NotFullCovered state :=
  reached.invariant
    (fun _ state => NotFullCovered state)
    (by
      intro thread asleep
      simp [machine, State.initial] at asleep)
    (fun before covered _ taken =>
      covered.step (Sound.of_reaches before) (Step.of_step? taken))

/-- No sleeping `drain()` caller of a reachable state has lost its wakeup. -/
theorem NotEmptyCovered.of_reaches
    (reached :
      (machine Thread T capacity).ReachesBy EmptyOut observed state) :
    NotEmptyCovered state :=
  reached.invariant
    (fun _ state => NotEmptyCovered state)
    (by
      intro thread asleep
      simp [machine, State.initial] at asleep)
    (fun before covered _ taken =>
      covered.step (Sound.of_reaches before)
        (BlankOuts.of_reaches before) (Step.of_step? taken))

/-- No sleeping `drain()` caller of a reachable state has missed a stop. -/
theorem StopCovered.of_reaches
    {allowed : State Thread T → Event Thread T → Prop}
    (reached :
      (machine Thread T capacity).ReachesBy allowed observed state) :
    StopCovered state :=
  reached.invariant
    (fun _ state => StopCovered state)
    (by
      intro thread asleep
      simp [machine, State.initial] at asleep)
    (fun before covered _ taken =>
      covered.step (Sound.of_reaches before) (Step.of_step? taken))

/-- No step changes the capacity. -/
theorem Step.capacity_eq
    {event : Event Thread T}
    {emitted : List (Obs Thread T)}
    {next : State Thread T}
    (step : Step state event emitted next) :
    next.queue.capacity = state.queue.capacity := by
  cases step with
  | call thread operation =>
      cases operation <;> rfl
  | _ =>
      rfl

/-- The capacity is the one the queue was constructed with. -/
theorem capacity_of_reaches
    {allowed : State Thread T → Event Thread T → Prop}
    (reached :
      (machine Thread T capacity).ReachesBy allowed observed state) :
    state.queue.capacity = capacity :=
  reached.invariant
    (fun _ state => state.queue.capacity = capacity)
    rfl
    (fun _ same _ taken =>
      (Step.of_step? taken).capacity_eq.trans same)

/-- The thread is running inside `push`, `drain` or `stop`. -/
def AwakeInside (state : State Thread T) (thread : Thread) : Prop :=
  ((state.phase thread).member? = some .push ∨
      (state.phase thread).member? = some .drain ∨
      (state.phase thread).member? = some .stop) ∧
    thread ∉ state.notFull.waiters ∧
    thread ∉ state.notEmpty.waiters

omit [DecidableEq Thread] in
/-- A thread that owes a notification to `not_full_` is running. -/
theorem Sound.awakeInside_of_owesNotFull
    (sound : Sound state)
    {thread : Thread}
    (owes : (state.phase thread).OwesNotFull) :
    AwakeInside state thread := by
  refine ⟨?_, sound.awake_notFull ?_, sound.awake_notEmpty ?_⟩
  · cases phase : state.phase thread <;>
      simp_all [Phase.OwesNotFull, Phase.member?]
  · intro item phase
    simp [phase, Phase.OwesNotFull] at owes
  · intro out phase
    simp [phase, Phase.OwesNotFull] at owes

omit [DecidableEq Thread] in
/-- A thread that owes a notification to `not_empty_` is running. -/
theorem Sound.awakeInside_of_owesNotEmpty
    (sound : Sound state)
    {thread : Thread}
    (owes : (state.phase thread).OwesNotEmpty) :
    AwakeInside state thread := by
  refine ⟨?_, sound.awake_notFull ?_, sound.awake_notEmpty ?_⟩
  · cases phase : state.phase thread <;>
      simp_all [Phase.OwesNotEmpty, Phase.member?]
  · intro item phase
    simp [phase, Phase.OwesNotEmpty] at owes
  · intro out phase
    simp [phase, Phase.OwesNotEmpty] at owes

/--
Blocked producers are never forgotten, and producers and consumers never wait
for each other with nobody left to wake them.
-/
theorem blocked_producers_are_woken
    (positive : 0 < capacity)
    (reached :
      (machine Thread T capacity).ReachesBy EmptyOut observed state) :
    (∀ producer ∈ state.notFull.waiters,
      state.queue.data.length < state.queue.capacity ∨
          state.queue.stopped = true →
        ∃ thread, (state.phase thread).OwesNotFull) ∧
      ¬ ((∃ producer, producer ∈ state.notFull.waiters) ∧
        (∃ drainer, drainer ∈ state.notEmpty.waiters) ∧
        ∀ thread, ¬ AwakeInside state thread) := by
  have sound := Sound.of_reaches reached
  have notFullCovered := NotFullCovered.of_reaches reached
  refine ⟨notFullCovered, ?_⟩
  rintro ⟨⟨producer, producerAsleep⟩, ⟨drainer, drainerAsleep⟩, nobody⟩
  have nothing : state.queue.data = [] := by
    by_contra something
    rcases NotEmptyCovered.of_reaches reached
        drainer drainerAsleep something with
      ⟨thread, owes⟩ | ⟨thread, out, waiting, awake⟩
    · exact nobody thread (sound.awakeInside_of_owesNotEmpty owes)
    · refine nobody thread
        ⟨Or.inr (Or.inl (by simp [waiting, Phase.member?])), ?_, awake⟩
      exact sound.awake_notFull (by simp [waiting])
  have room : state.queue.data.length < state.queue.capacity := by
    rw [nothing, capacity_of_reaches reached]
    exact positive
  obtain ⟨thread, owes⟩ :=
    notFullCovered producer producerAsleep (Or.inl room)
  exact nobody thread (sound.awakeInside_of_owesNotFull owes)

end Reached

/--
A producer asleep on a queue of capacity one that a `drain()` has just
emptied: the drain still owes the notification.
-/
theorem blocked_producers_are_woken_after_swap :
    ∃ (observed : List (Obs (Fin 3) Nat))
      (state : State (Fin 3) Nat),
      (machine (Fin 3) Nat 1).ReachesBy EmptyOut observed state ∧
        1 ∈ state.notFull.waiters ∧
        state.queue.data.length < state.queue.capacity ∧
        (∃ thread, (state.phase thread).OwesNotFull) := by
  obtain ⟨observed, state, reached, feature⟩ :=
    (machine (Fin 3) Nat 1).exists_reachesBy EmptyOut
      [.call 0 (.push 10 .block), .advance 0,
        .call 1 (.push 11 .block), .advance 1, .advance 1,
        .call 2 (.drain []), .advance 2]
      (fun _ state =>
        decide (1 ∈ state.notFull.waiters) &&
          decide (state.queue.data.length < state.queue.capacity))
      (by decide +kernel)
  simp only [Bool.and_eq_true, decide_eq_true_eq] at feature
  obtain ⟨asleep, room⟩ := feature
  exact ⟨observed, state, reached, asleep, room,
    (blocked_producers_are_woken (by decide) reached).1
      1 asleep (Or.inl room)⟩

end ConcLogger.Queue
