import ConcLogger.Concurrency.Record
import ConcLogger.Concurrency.Window
import ConcLogger.Queue.Accounting

namespace ConcLogger.Queue

open Concurrency

/-!
# What overflow does to the deque

The constructor checks nothing, so the capacity may be zero.  An eviction then
calls `pop_front` on an empty deque; runs without such a push are safe.  With
room for one item, pushes that all refuse the newest item hand the first items
of a burst to the next `drain`, pushes that all evict the oldest the last.
-/

variable {Thread T : Type}

section Push

variable
  [DecidableEq Thread]
  {state next : State Thread T}
  {emitted : List (Obs Thread T)}
  {thread : Thread}
  {item : Item Thread T}

/-- The first critical section of a push carries out what `push` computes. -/
theorem State.pushed_of_push
    {policy : OverflowPolicy}
    (phase : state.phase thread = .push item policy)
    (taken : state.step? (.advance thread) = some (next, emitted)) :
    state.pushed thread item (state.queue.push item policy) =
      (next, emitted) := by
  simp only [State.step?, State.advance?, phase,
    Option.ite_none_right_eq_some, Option.some.injEq] at taken
  exact taken.2

/-- A woken push carries out what its predicate computes. -/
theorem State.pushed_of_pushWaiting
    (phase : state.phase thread = .pushWaiting item)
    (taken : state.step? (.advance thread) = some (next, emitted)) :
    state.pushed thread item (state.queue.awaitNotFull item) =
      (next, emitted) := by
  simp only [State.step?, State.advance?, phase,
    Option.ite_none_right_eq_some, Option.some.injEq] at taken
  exact taken.2

end Push

/-! ## The capacity zero -/

/-- `pop_front` was never called on an empty deque, and the deque fits. -/
structure OverflowSafe (state : State Thread T) : Prop where
  defined :
    Defined state
  fits :
    state.queue.data.length ≤ state.queue.capacity

/-- The event is the first critical section of a push that drops the oldest. -/
def State.entersEviction
    (state : State Thread T) :
    Event Thread T → Bool
  | .advance thread =>
      match state.phase thread with
      | .push _ .dropOldest => true
      | _ => false
  | _ => false

/--
The deque passed to `drain` is empty, and a push that drops the oldest does
not begin its critical section on a queue of capacity zero.
-/
def EvictsWithRoom
    (state : State Thread T)
    (event : Event Thread T) : Prop :=
  EmptyOut state event ∧
    (state.entersEviction event = true → 0 < state.queue.capacity)

section Safety

variable
  [DecidableEq Thread]
  {capacity : Nat}
  {observed emitted : List (Obs Thread T)}
  {state next : State Thread T}
  {event : Event Thread T}
  {thread : Thread}
  {item : Item Thread T}

/-- Only one outcome of a critical section of `push` is undefined. -/
private theorem outcome_of_undefined
    {outcome : BoundedQueue.PushOutcome (Item Thread T)}
    (isUndefined :
      state.pushed thread item outcome =
        (state.moveTo thread (.undefined item), [])) :
    outcome = .undefined := by
  have phase :
      (state.pushed thread item outcome).1.phase thread =
        .undefined item := by
    simp [isUndefined]
  cases outcome with
  | undefined =>
      rfl
  | inserted queue evicted undelivered wasEmpty =>
      cases wasEmpty <;>
        simp [State.pushed, State.afterInsert] at phase
  | refused | blocked =>
      simp [State.pushed] at phase

omit [DecidableEq Thread] in
/-- Only a push that drops the oldest has an undefined outcome. -/
private theorem dropOldest_of_undefined
    {policy : OverflowPolicy}
    (isUndefined : state.queue.push item policy = .undefined) :
    policy = .dropOldest := by
  rcases state.queue.push_cases item policy with
    ⟨shape, _⟩ | ⟨shape, _⟩ | ⟨_, isOldest, _⟩ |
    ⟨oldest, rest, shape, _⟩ | ⟨shape, _⟩
  · rw [isUndefined] at shape
    cases shape
  · rw [isUndefined] at shape
    cases shape
  · exact isOldest
  · rw [isUndefined] at shape
    cases shape
  · rw [isUndefined] at shape
    cases shape

omit [DecidableEq Thread] in
/-- A push that has waited for room evicts nothing. -/
private theorem awaitNotFull_ne_undefined :
    state.queue.awaitNotFull item ≠ .undefined := by
  intro isUndefined
  rcases state.queue.awaitNotFull_cases item with
    ⟨shape, _⟩ | ⟨shape, _⟩ | ⟨shape, _⟩ <;>
  · rw [isUndefined] at shape
    cases shape

/-- The step that calls `pop_front` on an empty deque is an eviction. -/
private theorem entersEviction_of_undefined
    (deciding : state.Deciding thread item)
    (taken :
      state.step? (.advance thread) =
        some (state.moveTo thread (.undefined item), [])) :
    state.entersEviction (.advance thread) = true := by
  rcases deciding with ⟨policy, phase⟩ | ⟨phase, _⟩
  · have isOldest : policy = .dropOldest :=
      dropOldest_of_undefined
        (outcome_of_undefined (State.pushed_of_push phase taken))
    simp [State.entersEviction, phase, isOldest]
  · exact (awaitNotFull_ne_undefined
      (outcome_of_undefined
        (State.pushed_of_pushWaiting phase taken))).elim

/-- Every step keeps the deque defined unless it evicts without capacity. -/
theorem Defined.step_of_evictsWithRoom
    (defined : Defined state)
    (permitted : EvictsWithRoom state event)
    (taken : state.step? event = some (next, emitted)) :
    Defined next := by
  by_cases positive : 0 < state.queue.capacity
  · exact defined.step positive (Step.of_step? taken)
  · have noEviction : state.entersEviction event ≠ true :=
      fun evicts => positive (permitted.2 evicts)
    have step := Step.of_step? taken
    intro thread lost isUndefined
    by_cases other : thread ≠ event.thread
    · rw [step.phase_other other] at isUndefined
      exact defined thread lost isUndefined
    · rw [not_not] at other
      subst other
      cases step with
      | undefined mover item deciding =>
          exact noEviction (entersEviction_of_undefined deciding taken)
      | call mover operation =>
          cases operation <;>
            simp [State.begin, Event.thread] at isUndefined
      | insert mover pending deciding free room =>
          exact positive (Nat.zero_lt_of_lt room)
      | evict mover pending oldest rest deciding =>
          exact noEviction (by simp [State.entersEviction, deciding])
      | wakeNotFull | wakeNotEmpty =>
          exact defined _ lost isUndefined
      | _ =>
          simp [Event.thread] at isUndefined

/-- Nothing happens to a thread after undefined behaviour. -/
private theorem undefined_forever
    (step : Step state event emitted next)
    (isUndefined : state.phase thread = .undefined item) :
    next.phase thread = .undefined item := by
  by_cases other : thread ≠ event.thread
  · rw [step.phase_other other]
    exact isUndefined
  · rw [not_not] at other
    subst other
    cases step with
    | wakeNotFull | wakeNotEmpty =>
        exact isUndefined
    | refuse mover pending deciding | block mover pending deciding
    | undefined mover pending deciding
    | insert mover pending deciding =>
        rcases deciding with ⟨policy, phase⟩ | ⟨phase, _⟩ <;>
          simp [Event.thread, phase] at isUndefined
    | drainBlock mover out draining | exhaust mover out draining
    | swap mover out draining =>
        rcases draining with phase | ⟨phase, _⟩ <;>
          simp [Event.thread, phase] at isUndefined
    | returnOther mover returning =>
        rcases returning with ⟨result, out, phase⟩ | phase |
            ⟨result, phase⟩ <;>
          simp [Event.thread, phase] at isUndefined
    | call mover operation phase
    | evict mover pending oldest rest phase
    | sleepNotFull mover pending phase
    | notifyOne mover chosen pending undelivered notEmpty phase
    | sleepNotEmpty mover out phase | drainNotify mover out phase
    | stop mover phase | stopNotifyEmpty mover phase
    | stopNotifyFull mover phase | empty mover phase
    | returnPush mover pending undelivered phase =>
        simp [Event.thread, phase] at isUndefined

/-- Without capacity an eviction finds nothing to evict. -/
private theorem undefined_of_entersEviction
    (nothing : state.queue.data = [])
    (noCapacity : state.queue.capacity = 0)
    (evicts : state.entersEviction event = true)
    (taken : state.step? event = some (next, emitted)) :
    ¬ Defined next := by
  unfold State.entersEviction at evicts
  split at evicts
  · rename_i event thread
    split at evicts
    · rename_i item phase
      have carried := State.pushed_of_push phase taken
      have outcome :
          state.queue.push item .dropOldest = .undefined := by
        simp [BoundedQueue.push, noCapacity, nothing]
      rw [outcome] at carried
      cases carried
      exact fun defined => defined thread item (by simp)
    · cases evicts
  · cases evicts

/--
For every capacity, zero included: the runs in which no push evicts from a
queue without capacity are exactly the runs that stay safe.
-/
theorem overflow_is_safe_with_room :
    (machine Thread T capacity).ReachesBy
        EvictsWithRoom observed state ↔
      (machine Thread T capacity).ReachesBy
          EmptyOut observed state ∧
        OverflowSafe state := by
  constructor
  · intro reached
    have inQueue :
        (machine Thread T capacity).ReachesBy
          EmptyOut observed state :=
      reached.mono And.left
    refine ⟨inQueue, ?_, (Bounded.of_reaches inQueue).data⟩
    refine reached.invariant (fun _ state => Defined state) ?_ ?_
    · intro thread item isUndefined
      cases isUndefined
    · intro observed emitted state next event _ defined permitted taken
      exact defined.step_of_evictsWithRoom permitted taken
  · rintro ⟨reached, safe⟩
    have defined := safe.defined
    clear safe
    induction reached with
    | init =>
        exact .init
    | step event before permitted taken inductionHypothesis =>
        have definedBefore : Defined _ := fun thread item isUndefined =>
          defined thread item
            (undefined_forever (Step.of_step? taken) isUndefined)
        refine .step event (inductionHypothesis definedBefore)
          ⟨permitted, ?_⟩ taken
        intro evicts
        by_contra positive
        have noCapacity := Nat.eq_zero_of_not_pos positive
        have fits := (Bounded.of_reaches before).data
        rw [noCapacity] at fits
        exact undefined_of_entersEviction
          (List.eq_nil_of_length_eq_zero (Nat.le_zero.mp fits))
          noCapacity evicts taken defined

end Safety

/-- Capacity zero: the first push that drops the oldest pops an empty deque. -/
theorem eviction_without_capacity_is_undefined :
    ∃ (observed : List (Obs (Fin 1) Nat))
      (state : State (Fin 1) Nat),
      (machine (Fin 1) Nat 0).ReachesBy EmptyOut observed state ∧
        ¬ OverflowSafe state := by
  obtain ⟨observed, state, reached, feature⟩ :=
    (machine (Fin 1) Nat 0).exists_reachesBy EmptyOut
      [.call 0 (.push 7 .dropOldest), .advance 0]
      (fun _ state =>
        match state.phase 0 with
        | .undefined _ => true
        | _ => false)
      (by decide +kernel)
  refine ⟨observed, state, reached, ?_⟩
  intro safe
  split at feature
  · rename_i item isUndefined
    exact safe.defined 0 item isUndefined
  · cases feature

/-! ## Bursts under one drop policy -/

/-- What is kept of the items offered to an empty deque of some capacity. -/
def kept
    (policy : OverflowPolicy)
    (capacity : Nat)
    (offered : List (Item Thread T)) :
    List (Item Thread T) :=
  match policy with
  | .dropNewest => offered.take capacity
  | .dropOldest => offered.rtake capacity
  | .block => offered

/-- What happened since the last swap. -/
def sinceDrain (observed : List (Obs Thread T)) : List (Obs Thread T) :=
  observed.rtakeWhile fun seen => seen.drained?.isNone

/-- How many pushes have decided to return 1. -/
def losses (observed : List (Obs Thread T)) : Nat :=
  (decided observed).countP fun result => result.2 == 1

/-- Every push uses the given policy, and the deque passed to `drain` is empty. -/
def UsesPolicy
    (policy : OverflowPolicy)
    (state : State Thread T)
    (event : Event Thread T) : Prop :=
  EmptyOut state event ∧
    ∀ thread value used,
      event = .call thread (.push value used) →
      used = policy

instance decidableUsesPolicy
    (policy : OverflowPolicy)
    (state : State Thread T) :
    ∀ event, Decidable (UsesPolicy policy state event)
  | .call _ (.push _ used) =>
      decidable_of_iff (used = policy) (by simp [UsesPolicy, EmptyOut])
  | .call _ (.drain out) =>
      decidable_of_iff (out.isEmpty = true)
        (by simp [UsesPolicy, EmptyOut])
  | .call _ .stop | .call _ .empty
  | .advance _ | .notifyOne _ _ | .wake _ | .ret _ =>
      .isTrue (by simp [UsesPolicy, EmptyOut])

section Bursts

section Projections

variable (first second : List (Obs Thread T))

@[simp] theorem losses_append :
    losses (first ++ second) = losses first + losses second := by
  simp [losses]

/-- Without a swap the burst goes on. -/
theorem sinceDrain_append
    (undrained : batches second = []) :
    sinceDrain (first ++ second) = sinceDrain first ++ second := by
  have quiet :
      ∀ seen ∈ second.reverse, seen.drained?.isNone = true := by
    intro seen member
    rw [batches, List.filterMap_eq_nil_iff] at undrained
    simpa using undrained seen (List.mem_reverse.mp member)
  simp only [sinceDrain, List.rtakeWhile, List.reverse_append,
    List.takeWhile_append_of_pos quiet, List.reverse_reverse]

/-- A swap ends the burst. -/
theorem sinceDrain_concat_drained
    (batch : List (Item Thread T)) :
    sinceDrain (first ++ [.drained batch]) = [] := by
  simp [sinceDrain]

end Projections

/-- Everything a step can do to the deque when all pushes use one drop policy. -/
inductive DropStep
    (policy : OverflowPolicy)
    (queue : BoundedQueue (Item Thread T)) :
    List (Obs Thread T) → List (Item Thread T) → Prop where
  | quiet
      (emitted : List (Obs Thread T))
      (undrained : batches emitted = [])
      (undecided : decided emitted = [])
      (uninserted : inserted emitted = []) :
      DropStep policy queue emitted queue.data
  | refuse
      (item : Item Thread T)
      (newest : policy = .dropNewest)
      (full : queue.capacity ≤ queue.data.length) :
      DropStep policy queue
        [.refused item, .decided item 1] queue.data
  | evict
      (item oldest : Item Thread T)
      (rest : List (Item Thread T))
      (isOldest : policy = .dropOldest)
      (contents : queue.data = oldest :: rest)
      (full : queue.capacity ≤ queue.data.length) :
      DropStep policy queue
        [.evicted oldest, .inserted item, .decided item 1]
        (rest ++ [item])
  | insert
      (item : Item Thread T)
      (room : queue.data.length < queue.capacity) :
      DropStep policy queue
        [.inserted item, .decided item 0] (queue.data ++ [item])
  | swap :
      DropStep policy queue [.drained queue.data] []

/-- The thread is not inside a push of another policy, nor does it wait. -/
def Phase.Drops
    (policy : OverflowPolicy) : Phase Thread T → Prop
  | .push _ used => used = policy
  | .pushBlocking _ | .pushWaiting _ => False
  | _ => True

/-- Every push under way uses the given policy and does not wait. -/
def Dropping
    (policy : OverflowPolicy)
    (state : State Thread T) : Prop :=
  ∀ thread, (state.phase thread).Drops policy

variable
  [DecidableEq Thread]
  {policy : OverflowPolicy}
  {capacity : Nat}
  {observed emitted : List (Obs Thread T)}
  {state next : State Thread T}
  {event : Event Thread T}

/-- The critical section of a push with a drop policy. -/
private theorem dropStep_of_push
    {thread : Thread}
    {item : Item Thread T}
    (drops : policy ≠ .block)
    (phase : state.phase thread = .push item policy)
    (taken : state.step? (.advance thread) = some (next, emitted)) :
    DropStep policy state.queue emitted next.queue.data ∧
      (next.phase thread).Drops policy := by
  have carried := State.pushed_of_push phase taken
  rcases state.queue.push_cases item policy with
    ⟨shape, full, newest | ⟨blocks, _⟩⟩ | ⟨_, blocks, _⟩ |
    ⟨shape, _⟩ | ⟨oldest, rest, shape, isOldest, contents, full⟩ |
    ⟨shape, room⟩
  · rw [shape] at carried
    cases carried
    exact ⟨.refuse item newest full, by simp [Phase.Drops]⟩
  · exact (drops blocks).elim
  · exact (drops blocks).elim
  · rw [shape] at carried
    cases carried
    exact ⟨.quiet [] rfl rfl rfl, by simp [Phase.Drops]⟩
  · rw [shape] at carried
    cases carried
    refine ⟨.evict item oldest rest isOldest contents full, ?_⟩
    cases rest <;> simp [State.afterInsert, Phase.Drops]
  · rw [shape] at carried
    cases carried
    refine ⟨.insert item room, ?_⟩
    cases state.queue.data <;> simp [State.afterInsert, Phase.Drops]

omit [DecidableEq Thread] in
/-- The thread that decides has its push in front of the critical section. -/
private theorem Dropping.phase_of_deciding
    (dropping : Dropping policy state)
    {thread : Thread}
    {item : Item Thread T}
    (deciding : state.Deciding thread item) :
    state.phase thread = .push item policy := by
  have drops := dropping thread
  rcases deciding with ⟨used, phase⟩ | ⟨phase, _⟩
  · rw [phase] at drops
    rw [phase, show used = policy from drops]
  · rw [phase] at drops
    exact drops.elim

/-- Only the mover has to be checked. -/
private theorem Dropping.of_mover
    (dropping : Dropping policy state)
    (step : Step state event emitted next)
    (mover : (next.phase event.thread).Drops policy) :
    Dropping policy next := by
  intro thread
  by_cases other : thread ≠ event.thread
  · rw [step.phase_other other]
    exact dropping thread
  · rw [not_not] at other
    rw [other]
    exact mover

/-- Every step of such pushes is listed, and it leaves such pushes. -/
theorem Dropping.step
    (dropping : Dropping policy state)
    (drops : policy ≠ .block)
    (permitted : UsesPolicy policy state event)
    (blank : BlankOuts state)
    (taken : state.step? event = some (next, emitted)) :
    DropStep policy state.queue emitted next.queue.data ∧
      Dropping policy next := by
  have keeps :
      (next.phase event.thread).Drops policy → Dropping policy next :=
    dropping.of_mover (Step.of_step? taken)
  cases Step.of_step? taken with
  | call mover operation =>
      refine ⟨?_, keeps ?_⟩
      · cases operation <;> exact .quiet [] rfl rfl rfl
      · cases operation with
        | push value used =>
            simpa [State.begin, Event.thread, Phase.Drops] using
              permitted.2 mover value used rfl
        | drain | stop | empty =>
            simp [State.begin, Event.thread, Phase.Drops]
  | refuse mover item deciding | block mover item deciding
  | undefined mover item deciding | insert mover item deciding =>
      have phase := dropping.phase_of_deciding deciding
      obtain ⟨effect, drop⟩ := dropStep_of_push drops phase taken
      exact ⟨effect, keeps drop⟩
  | evict mover item oldest rest deciding =>
      have phase :=
        dropping.phase_of_deciding (Or.inl ⟨_, deciding⟩)
      obtain ⟨effect, drop⟩ := dropStep_of_push drops phase taken
      exact ⟨effect, keeps drop⟩
  | swap mover out draining =>
      refine ⟨?_, keeps (by simp [Event.thread, Phase.Drops])⟩
      have out_nil := blank.out_eq_nil draining
      subst out_nil
      exact .swap
  | wakeNotFull | wakeNotEmpty =>
      exact ⟨.quiet [] rfl rfl rfl, dropping⟩
  | returnPush mover item undelivered =>
      exact ⟨.quiet _ rfl rfl rfl,
        keeps (by simp [Event.thread, Phase.Drops])⟩
  | sleepNotFull mover item blocking =>
      have drop := dropping mover
      rw [blocking] at drop
      exact drop.elim
  | _ =>
      exact ⟨.quiet [] rfl rfl rfl,
        keeps (by simp [Event.thread, Phase.Drops])⟩

/-- The deque is a window on the burst, and the losses are what did not fit. -/
structure Windowed
    (policy : OverflowPolicy)
    (capacity : Nat)
    (burst : List (Obs Thread T))
    (data : List (Item Thread T)) : Prop where
  window :
    data = kept policy capacity (decidedItems burst)
  lost :
    losses burst = (decidedItems burst).length - capacity

omit [DecidableEq Thread] in
/-- With one of the drop policies a window is as long as it can be. -/
private theorem length_kept
    (drops : policy ≠ .block)
    (offered : List (Item Thread T)) :
    (kept policy capacity offered).length =
      min capacity offered.length := by
  cases policy with
  | dropNewest =>
      exact List.length_take
  | dropOldest =>
      exact length_rtake
  | block =>
      exact (drops rfl).elim

omit [DecidableEq Thread] in
/-- A burst begins with an empty deque. -/
private theorem Windowed.nil
    (drops : policy ≠ .block) :
    Windowed policy capacity ([] : List (Obs Thread T)) [] where
  window := by
    cases policy with
    | dropNewest | dropOldest =>
        simp [kept, decidedItems, decided]
    | block =>
        exact (drops rfl).elim
  lost := by
    simp [losses, decidedItems, decided]

omit [DecidableEq Thread] in
/-- Every step but a swap prolongs the burst and moves the window. -/
private theorem Windowed.step
    {burst : List (Obs Thread T)}
    {queue : BoundedQueue (Item Thread T)}
    {data : List (Item Thread T)}
    (windowed : Windowed policy queue.capacity burst queue.data)
    (drops : policy ≠ .block)
    (positive : 0 < queue.capacity)
    (step : DropStep policy queue emitted data)
    (undrained : batches emitted = []) :
    Windowed policy queue.capacity (burst ++ emitted) data := by
  have held := congrArg List.length windowed.window
  rw [length_kept drops] at held
  have lost := windowed.lost
  cases step with
  | quiet emitted _ undecided _ =>
      have nothing : decidedItems emitted = [] := by
        simp [decidedItems, undecided]
      have noLosses : losses emitted = 0 := by
        simp [losses, undecided]
      exact {
        window := by
          simpa [nothing] using windowed.window
        lost := by
          simpa [nothing, noLosses] using windowed.lost
      }
  | refuse item newest full =>
      subst newest
      have offered :
          decidedItems [Obs.refused item, .decided item 1] = [item] :=
        rfl
      have oneLoss : losses [Obs.refused item, .decided item 1] = 1 :=
        rfl
      exact {
        window := by
          rw [decidedItems_append, offered, kept,
            take_concat_of_full item (by omega)]
          exact windowed.window
        lost := by
          rw [losses_append, decidedItems_append, offered, oneLoss,
            List.length_append, List.length_singleton]
          omega
      }
  | evict item oldest rest isOldest contents full =>
      subst isOldest
      have offered :
          decidedItems
              [Obs.evicted oldest, .inserted item, .decided item 1] =
            [item] :=
        rfl
      have oneLoss :
          losses
              [Obs.evicted oldest, .inserted item, .decided item 1] =
            1 :=
        rfl
      exact {
        window := by
          have before :
              queue.data =
                (decidedItems burst).rtake queue.capacity :=
            windowed.window
          rw [decidedItems_append, offered, kept,
            rtake_concat_of_full item positive (by omega),
            ← before, contents, List.tail_cons]
        lost := by
          rw [losses_append, decidedItems_append, offered, oneLoss,
            List.length_append, List.length_singleton]
          omega
      }
  | insert item room =>
      have offered :
          decidedItems [Obs.inserted item, .decided item 0] = [item] :=
        rfl
      have noLoss : losses [Obs.inserted item, .decided item 0] = 0 :=
        rfl
      have fits : (decidedItems burst).length < queue.capacity := by
        omega
      exact {
        window := by
          rw [decidedItems_append, offered]
          cases policy with
          | dropNewest =>
              rw [kept, take_concat_of_room item fits]
              exact congrArg (· ++ [item]) windowed.window
          | dropOldest =>
              rw [kept, rtake_concat_of_room item fits]
              exact congrArg (· ++ [item]) windowed.window
          | block =>
              exact (drops rfl).elim
        lost := by
          rw [losses_append, decidedItems_append, offered, noLoss,
            List.length_append, List.length_singleton]
          omega
      }
  | swap =>
      simp [batches] at undrained

/-- Every burst of a run is windowed, the one that is going on included. -/
structure BurstsWindowed
    (policy : OverflowPolicy)
    (capacity : Nat)
    (observed : List (Obs Thread T))
    (state : State Thread T) : Prop where
  dropping :
    Dropping policy state
  present :
    Windowed policy capacity (sinceDrain observed) state.queue.data
  past :
    ∀ front batch,
      front ++ [.drained batch] <+: observed →
      Windowed policy capacity (sinceDrain front) batch
  own :
    policy = .dropOldest →
    decidedItems observed = inserted observed

namespace BurstsWindowed

omit [DecidableEq Thread] in
/-- Under a policy that drops the oldest, what is decided is inserted. -/
private theorem decided_eq_inserted
    {queue : BoundedQueue (Item Thread T)}
    {data : List (Item Thread T)}
    (isOldest : policy = .dropOldest)
    (step : DropStep policy queue emitted data) :
    decidedItems emitted = inserted emitted := by
  cases step with
  | quiet emitted undrained undecided uninserted =>
      simp [decidedItems, undecided, uninserted]
  | refuse item newest =>
      rw [isOldest] at newest
      cases newest
  | evict | insert | swap =>
      rfl

/-- Every step leaves all bursts windowed. -/
theorem step
    (windowed : BurstsWindowed policy capacity observed state)
    (drops : policy ≠ .block)
    (positive : 0 < capacity)
    (sameCapacity : state.queue.capacity = capacity)
    (permitted : UsesPolicy policy state event)
    (blank : BlankOuts state)
    (taken : state.step? event = some (next, emitted)) :
    BurstsWindowed policy capacity (observed ++ emitted) next := by
  obtain ⟨effect, dropping⟩ :=
    windowed.dropping.step drops permitted blank taken
  have own :
      policy = .dropOldest →
      decidedItems (observed ++ emitted) =
        inserted (observed ++ emitted) := by
    intro isOldest
    rw [decidedItems_append, inserted_append,
      windowed.own isOldest, decided_eq_inserted isOldest effect]
  have present := windowed.present
  by_cases undrained : batches emitted = []
  · refine {
      dropping := dropping
      present := ?_
      past := ?_
      own := own
    }
    · rw [sinceDrain_append _ _ undrained]
      subst sameCapacity
      exact present.step drops positive effect undrained
    · intro front batch isPrefix
      rcases prefix_append_cases isPrefix with
        before | ⟨middle, _, now⟩
      · exact windowed.past front batch before
      · have swapped : batch ∈ batches emitted := by
          rw [batches, List.mem_filterMap]
          exact ⟨.drained batch, now.subset (by simp), rfl⟩
        rw [undrained] at swapped
        cases swapped
  · generalize isData : next.queue.data = data at effect
    cases effect with
    | swap =>
        refine {
          dropping := dropping
          present := ?_
          past := ?_
          own := own
        }
        · rw [sinceDrain_concat_drained, isData]
          exact .nil drops
        · intro front batch isPrefix
          rcases prefix_append_cases isPrefix with
            before | ⟨middle, rfl, now⟩
          · exact windowed.past front batch before
          · cases middle with
            | nil =>
                obtain ⟨rest, shape⟩ := now
                cases shape
                simpa using present
            | cons head tail =>
                have short := now.length_le
                simp at short
    | quiet emitted quietly =>
        exact (undrained quietly).elim
    | refuse | evict | insert =>
        exact (undrained rfl).elim

/-- In every run under one drop policy all bursts are windowed. -/
theorem of_reaches
    (drops : policy ≠ .block)
    (positive : 0 < capacity)
    (reached :
      (machine Thread T capacity).ReachesBy
        (UsesPolicy policy) observed state) :
    BurstsWindowed policy capacity observed state := by
  refine reached.invariant (BurstsWindowed policy capacity)
    {
      dropping := by
        intro thread
        trivial
      present := .nil drops
      past := by simp
      own := fun _ => rfl
    } ?_
  intro observed emitted state next event before windowed permitted taken
  have inQueue := before.mono And.left
  exact windowed.step drops positive (capacity_of_reaches inQueue)
    permitted (BlankOuts.of_reaches inQueue) taken

end BurstsWindowed

/-- What a push returns is what it has decided. -/
theorem eq_decided_of_returned
    {allowed : State Thread T → Event Thread T → Prop}
    (reached :
      (machine Thread T capacity).ReachesBy allowed observed state)
    {item : Item Thread T}
    {answer result : Nat}
    (returned : .returned item answer ∈ observed)
    (isDecided : (item, result) ∈ decided observed) :
    answer = result := by
  have answered :=
    (Reported.of_reaches reached).returned item answer returned
  have same :=
    List.inj_on_of_nodup_map (Stamped.of_reaches reached).nodup
      answered isDecided rfl
  exact congrArg Prod.snd same

/--
Under one drop policy a `drain` hands out the first or the last items of the
burst since the `drain` before it, as many as fit; the others are counted by
results of 1, and a push that drops the oldest always inserts its own item.
-/
theorem overflow_keeps_one_end_of_burst
    {before during later : List (Obs Thread T)}
    {first second : List (Item Thread T)}
    (positive : 0 < capacity)
    (drops : policy ≠ .block)
    (reached :
      (machine Thread T capacity).ReachesBy
        (UsesPolicy policy) observed state)
    (consecutive :
      observed =
        before ++ .drained first :: during ++
          .drained second :: later)
    (between : batches during = []) :
    (policy = .dropNewest →
        second = (decidedItems during).take capacity) ∧
      (policy = .dropOldest →
        second = (decidedItems during).rtake capacity ∧
          decidedItems observed = inserted observed) ∧
      losses during = (decidedItems during).length - capacity ∧
      ∀ item answer result,
        .returned item answer ∈ observed →
        (item, result) ∈ decided observed →
        answer = result := by
  have windowed := BurstsWindowed.of_reaches drops positive reached
  have burst :
      sinceDrain (before ++ .drained first :: during) = during := by
    rw [List.append_cons, sinceDrain_append _ _ between,
      sinceDrain_concat_drained, List.nil_append]
  have isPrefix :
      before ++ .drained first :: during ++ [.drained second] <+:
        observed :=
    ⟨later, by simp [consecutive]⟩
  have window := windowed.past _ second isPrefix
  rw [burst] at window
  refine ⟨?_, ?_, window.lost, ?_⟩
  · rintro rfl
    exact window.window
  · rintro rfl
    exact ⟨window.window, windowed.own rfl⟩
  · intro item answer result returned isDecided
    exact eq_decided_of_returned reached returned isDecided

end Bursts

/-- Capacity two and a burst of three: the first item of the burst is evicted. -/
theorem overflow_keeps_one_end_of_burst_of_three :
    ∃ (state : State (Fin 2) Nat)
      (before during later : List (Obs (Fin 2) Nat))
      (first second : List (Item (Fin 2) Nat)),
      (machine (Fin 2) Nat 2).ReachesBy (UsesPolicy .dropOldest)
          (before ++ .drained first :: during ++
            .drained second :: later) state ∧
        (decidedItems during).map Item.value = [20, 30, 40] ∧
        second.map Item.value = [30, 40] ∧
        second = (decidedItems during).rtake 2 ∧
        losses during = 3 - 2 := by
  obtain ⟨observed, state, reached, feature⟩ :=
    (machine (Fin 2) Nat 2).exists_reachesBy (UsesPolicy .dropOldest)
      [.call 0 (.push 10 .dropOldest), .advance 0,
        .call 1 (.drain []), .advance 1, .advance 1, .ret 1,
        .notifyOne 0 1, .ret 0,
        .call 0 (.push 20 .dropOldest), .advance 0,
        .notifyOne 0 1, .ret 0,
        .call 0 (.push 30 .dropOldest), .advance 0, .ret 0,
        .call 0 (.push 40 .dropOldest), .advance 0,
        .call 1 (.drain []), .advance 1]
      (fun observed _ =>
        observed ==
          [.inserted ⟨0, 0, 10⟩, .decided ⟨0, 0, 10⟩ 0] ++
            .drained [⟨0, 0, 10⟩] ::
            [.returned ⟨0, 0, 10⟩ 0,
              .inserted ⟨0, 1, 20⟩, .decided ⟨0, 1, 20⟩ 0,
              .returned ⟨0, 1, 20⟩ 0,
              .inserted ⟨0, 2, 30⟩, .decided ⟨0, 2, 30⟩ 0,
              .returned ⟨0, 2, 30⟩ 0,
              .evicted ⟨0, 1, 20⟩, .inserted ⟨0, 3, 40⟩,
              .decided ⟨0, 3, 40⟩ 1] ++
            .drained [⟨0, 2, 30⟩, ⟨0, 3, 40⟩] :: [])
      (by decide +kernel)
  rw [beq_iff_eq] at feature
  have ends :=
    overflow_keeps_one_end_of_burst (by decide) (by decide)
      reached feature rfl
  rw [feature] at reached
  exact ⟨state, _, _, _, _, _, reached, rfl, rfl,
    (ends.2.1 rfl).1, ends.2.2.1⟩

/-! ## Losses over whole runs -/

/--
Every decided item is handed out, queued or lost.  A queue that is running has
lost an item only when it was full, and swaps only move what filled it.
-/
structure Budgeted
    (observed : List (Obs Thread T))
    (state : State Thread T) : Prop where
  balance :
    (decided observed).length =
      (handed observed).length + state.queue.data.length +
        losses observed
  full :
    state.queue.stopped = false →
    losses observed ≠ 0 →
    state.queue.capacity ≤
      (handed observed).length + state.queue.data.length

section Budget

variable
  [DecidableEq Thread]
  {capacity : Nat}
  {observed emitted : List (Obs Thread T)}
  {state next : State Thread T}
  {event : Event Thread T}

omit [DecidableEq Thread] in
/-- What a step contributes to the budget is added up. -/
private theorem Budgeted.add
    (budgeted : Budgeted observed state)
    (balance :
      (decided emitted).length + state.queue.data.length =
        (handed emitted).length + next.queue.data.length + losses emitted)
    (full :
      next.queue.stopped = false →
      losses observed + losses emitted ≠ 0 →
      next.queue.capacity ≤
        (handed observed).length + (handed emitted).length +
          next.queue.data.length) :
    Budgeted (observed ++ emitted) next where
  balance := by
    have before := budgeted.balance
    rw [decided_append, handed_append, losses_append, List.length_append,
      List.length_append]
    omega
  full := by
    rw [handed_append, losses_append, List.length_append]
    exact full

omit [DecidableEq Thread] in
/-- Steps that decide and hand out nothing leave the budget alone. -/
private theorem Budgeted.quiet
    (budgeted : Budgeted observed state)
    (silent :
      (decided emitted).length = 0 ∧ (handed emitted).length = 0 ∧
        losses emitted = 0)
    (data : next.queue.data = state.queue.data)
    (capacity : next.queue.capacity = state.queue.capacity)
    (stopped :
      next.queue.stopped = false → state.queue.stopped = false) :
    Budgeted (observed ++ emitted) next := by
  obtain ⟨noDecided, noHanded, noLosses⟩ := silent
  refine budgeted.add (by rw [data]; omega) fun running lost => ?_
  rw [data, capacity, noHanded, Nat.add_zero]
  exact budgeted.full (stopped running) (by omega)

/-- Every step with an empty deque for `drain` keeps the budget. -/
theorem Budgeted.step
    (budgeted : Budgeted observed state)
    (blank : BlankOuts state)
    (step : Step state event emitted next) :
    Budgeted (observed ++ emitted) next := by
  cases step with
  | refuse thread item deciding free reason =>
      refine budgeted.add ?_ fun running _ => ?_
      · change 1 + _ = 0 + state.queue.data.length + 1
        omega
      · rcases reason with ⟨_, full⟩ | stopped
        · exact full.trans (Nat.le_add_left _ _)
        · rw [State.queue_moveTo, stopped] at running
          cases running
  | insert thread item deciding free room =>
      have longer :
          (state.queue.data ++ [item]).length =
            state.queue.data.length + 1 :=
        List.length_append
      refine budgeted.add ?_ fun running lost => ?_
      · change 1 + _ = 0 + (state.queue.data ++ [item]).length + 0
        omega
      · have before := budgeted.full running lost
        change _ ≤ _ + 0 + (state.queue.data ++ [item]).length
        change state.queue.capacity ≤ _
        omega
  | evict thread item oldest rest deciding free contents full =>
      have same :
          (rest ++ [item]).length = state.queue.data.length := by
        simp [contents]
      refine budgeted.add ?_ fun running lost => ?_
      · change 1 + _ = 0 + (rest ++ [item]).length + 1
        omega
      · change state.queue.capacity ≤ _ + 0 + (rest ++ [item]).length
        omega
  | swap thread out draining =>
      obtain rfl := blank.out_eq_nil draining
      have batch :
          (handed [(.drained state.queue.data : Obs Thread T)]).length =
            state.queue.data.length := by
        simp [handed, batches]
      refine budgeted.add ?_ fun running lost => ?_
      · rw [batch]
        exact Nat.add_comm _ _
      · rw [batch]
        exact budgeted.full running lost
  | stop thread stopping =>
      refine budgeted.quiet ⟨rfl, rfl, rfl⟩ rfl rfl fun running => ?_
      cases running
  | call thread operation =>
      cases operation <;>
        exact budgeted.quiet ⟨rfl, rfl, rfl⟩ rfl rfl id
  | _ =>
      exact budgeted.quiet ⟨rfl, rfl, rfl⟩ rfl rfl id

/-- In every run the budget is kept. -/
theorem Budgeted.of_reaches
    (reached :
      (machine Thread T capacity).ReachesBy EmptyOut observed state) :
    Budgeted observed state :=
  reached.invariant Budgeted
    ⟨rfl, fun _ lost => (lost rfl).elim⟩
    (fun before budgeted _ taken =>
      budgeted.step (BlankOuts.of_reaches before) (Step.of_step? taken))

/--
Whatever the policies of the pushes and however slow the consumers are, if these
pass empty deques to `drain`, a queue that has not been stopped loses only what
exceeds its capacity: of `n` items that have been decided it has lost
`n - capacity` at most.
-/
theorem queue_loses_only_what_exceeds_its_capacity
    (reached :
      (machine Thread T capacity).ReachesBy EmptyOut observed state)
    (running : state.queue.stopped = false) :
    losses observed ≤ (decided observed).length - capacity := by
  have budgeted := Budgeted.of_reaches reached
  have balance := budgeted.balance
  have full := budgeted.full running
  rw [capacity_of_reaches reached] at full
  by_cases lost : losses observed = 0
  · rw [lost]
    exact Nat.zero_le _
  · have enough := full lost
    omega

end Budget

/-- One of three items is lost although one has been handed out meanwhile. -/
theorem queue_loses_only_what_exceeds_its_capacity_of_slow_consumer :
    ∃ (observed : List (Obs (Fin 2) Nat)) (state : State (Fin 2) Nat),
      (machine (Fin 2) Nat 1).ReachesBy EmptyOut observed state ∧
        (decided observed).length = 3 ∧
        losses observed = 1 ∧
        losses observed ≤ 3 - 1 := by
  obtain ⟨observed, state, reached, feature⟩ :=
    (machine (Fin 2) Nat 1).exists_reachesBy EmptyOut
      [.call 0 (.push 10 .dropNewest), .advance 0,
        .call 1 (.drain []), .advance 1, .notifyOne 0 1, .ret 0,
        .call 0 (.push 20 .dropOldest), .advance 0,
        .notifyOne 0 1, .ret 0, .call 0 (.push 30 .dropNewest), .advance 0]
      (fun observed state =>
        decide
          ((decided observed).length = 3 ∧ losses observed = 1 ∧
            state.queue.stopped = false))
      (by decide +kernel)
  obtain ⟨three, one, running⟩ := of_decide_eq_true feature
  have bound := queue_loses_only_what_exceeds_its_capacity reached running
  rw [three] at bound
  exact ⟨observed, state, reached, three, one, bound⟩

end ConcLogger.Queue
