import ConcLogger.Async.Origins
import ConcLogger.Async.Pending
import ConcLogger.Queue.Exceptions

namespace ConcLogger.Async.Failing

open Concurrency

/-!
# Loggers whose `push_back` may throw

The threads of an asynchronous logger take the same steps as before, and in
addition the `push` of any `log()` call may end by an exception.  Neither
`push` nor `log` catches it, so the call is over at once: nothing is done
about the `fetch_add` that came before and about the entry that `DROP_OLDEST`
has already taken out of the deque.

The record also shows what each step of a client does to `pending_` and to
`data_`, so that the effect of one call can be told from that of the others.
-/

/-- Scheduler choices. -/
inductive Event (Thread : Type) where
  | regular (event : Async.Event Thread)
  /-- `data_.push_back` throws inside the `push` of a client. -/
  | throw (thread : Thread)

/-- By how much `pending_` has changed, and which entries have left `data_`. -/
abbrev Change (Thread : Type) : Type :=
  Int × Multiset (Item Thread)

/-- What can be seen of a run. -/
inductive Obs (Thread : Type) where
  | seen (observation : Async.Obs Thread)
  /-- The step was one of this client's. -/
  | changed (thread : Thread) (change : Change Thread)
  /-- `log` has exited by the exception; its `push` had evicted the victim. -/
  | threw (thread : Thread) (victim : Option (Item Thread))
  deriving DecidableEq

/-- The client that takes the step; nobody causes a spurious wakeup. -/
def caller? {Thread : Type} : Async.Event Thread → Option Thread
  | .log thread _ _ _ _ | .flush thread | .destroy thread
  | .client thread | .advance (.client thread)
  | .notifyOne (.client thread) _ => some thread
  | _ => none

variable
  {Thread : Type}
  [DecidableEq Thread]

/-- What a step has done to `pending_` and to `data_`. -/
def change (state next : State Thread) : Change Thread :=
  (next.pending - state.pending,
    (state.core.shared.queue.data : Multiset (Item Thread)) -
      next.core.shared.queue.data)

/-- `queue_.push` throws, and so does `log`. -/
def throw?
    (state : State Thread)
    (thread : Thread) :
    Option (State Thread × Option (Item Thread)) :=
  match state.phase thread with
  | .logPushing =>
      (state.core.shared.throw? (.client thread)).map fun result =>
        ({ state.moveTo thread .idle with
            core := { state.core with shared := result.1 } }, result.2)
  | _ =>
      none

/-- One step of the logger and its threads. -/
def step?
    (config : LoggerConfig)
    (state : State Thread) :
    Event Thread → Option (State Thread × List (Obs Thread))
  | .regular event =>
      (state.step? config event).map fun result =>
        (result.1,
          result.2.map .seen ++
            (caller? event).toList.map fun thread =>
              .changed thread (change state result.1))
  | .throw thread =>
      (throw? state thread).map fun result =>
        (result.1,
          [.changed thread (change state result.1),
            .threw thread result.2])

/-- An asynchronous logger whose insertions may fail. -/
def machine
    (Thread : Type)
    [DecidableEq Thread]
    (config : LoggerConfig) :
    Machine (State Thread) (Event Thread) (Obs Thread) where
  init := .initial config
  step? := step? config

/-! ## What failures leave in `pending_` -/

/-- How much a failed call leaves in `pending_` that nobody will subtract. -/
def Obs.leak : Obs Thread → Nat
  | .threw _ victim => 1 + victim.toList.length
  | _ => 0

/-- How much all failed calls have left in `pending_`. -/
def leaked (observed : List (Obs Thread)) : Nat :=
  (observed.map Obs.leak).sum

/-- The outstanding entries, as `flush()` is meant to wait for them. -/
def outstanding
    [Fintype Thread]
    (state : State Thread) : Nat :=
  state.core.shared.queue.data.length + state.unsettled.length +
    headcount state.inFlight + headcount state.owing

/-! ## What one step can do -/

/-- The steps of a logger whose insertions may fail. -/
inductive Step
    (config : LoggerConfig)
    (state : State Thread) :
    Event Thread → List (Obs Thread) → State Thread → Prop where
  | regular
      (event : Async.Event Thread)
      (emitted : List (Async.Obs Thread))
      (next : State Thread)
      (step : Async.Step config state event emitted next) :
      Step config state (.regular event)
        (emitted.map .seen ++
          (caller? event).toList.map fun thread =>
            .changed thread (change state next))
        next
  | throw
      (thread : Thread)
      (victim : Option (Item Thread))
      (shared : Queue.State (DrainLoop.Party Thread) LogEntry)
      (next : State Thread)
      (pushing : state.phase thread = .logPushing)
      (thrown :
        Queue.Throw state.core.shared (.client thread) victim shared)
      (moved :
        next =
          { state.moveTo thread .idle with
            core := { state.core with shared := shared } }) :
      Step config state (.throw thread)
        [.changed thread (change state next), .threw thread victim]
        next

section Steps

variable
  {config : LoggerConfig}
  {state next : State Thread}
  {event : Event Thread}
  {emitted : List (Obs Thread)}

/-- The executable step function takes only the listed steps. -/
theorem Step.of_step?
    (taken : step? config state event = some (next, emitted)) :
    Step config state event emitted next := by
  cases event with
  | regular event =>
      simp only [step?, Option.map_eq_some_iff] at taken
      obtain ⟨⟨next, seen⟩, taken, shape⟩ := taken
      cases shape
      exact .regular event seen next (.of_step? taken)
  | throw thread =>
      simp only [step?, throw?, Option.map_eq_some_iff] at taken
      obtain ⟨⟨next, victim⟩, taken, shape⟩ := taken
      cases shape
      split at taken
      · rename_i pushing
        rw [Option.map_eq_some_iff] at taken
        obtain ⟨⟨shared, victim⟩, taken, shape⟩ := taken
        cases shape
        exact .throw thread victim shared _ pushing
          (.of_throw? taken) rfl
      · cases taken

/-! ## What failures leave intact -/

/-- The invariants on which the accounting of `pending_` rests. -/
structure Sound
    (config : LoggerConfig)
    (state : State Thread) : Prop where
  linked : Linked state
  coreLinked : DrainLoop.Linked state.core
  defined : Queue.Defined state.core.shared
  bounded : Queue.Bounded state.core.shared
  settlesOne : SettlesOne state
  uniform : Uniform config state
  capacity :
    state.core.shared.queue.capacity = config.policy.queueCapacity

namespace Sound

/-- The drain loop inside the logger makes a step or none. -/
private theorem core_step
    (sound : Sound config state)
    (positive : 0 < config.policy.queueCapacity)
    {core : DrainLoop.State Thread LogEntry}
    {called : DrainLoop.Event Thread LogEntry}
    {seen : List (Queue.Obs (DrainLoop.Party Thread) LogEntry)}
    (step : DrainLoop.Step state.core called seen core) :
    Queue.Defined core.shared ∧
      Queue.Bounded core.shared ∧
      core.shared.queue.capacity = config.policy.queueCapacity := by
  rcases step.shared_cases sound.coreLinked.batch_eq_nil with
    ⟨same, _⟩ | ⟨inner, _, taken⟩
  · rw [same]
    exact ⟨sound.defined, sound.bounded, sound.capacity⟩
  · have moved := Queue.Step.of_step? taken
    refine ⟨sound.defined.step ?_ moved,
      sound.bounded.step sound.coreLinked.blank moved,
      moved.capacity_eq.trans sound.capacity⟩
    rwa [sound.capacity]

/-- The steps of the logger that does not fail keep the invariants. -/
private theorem regular
    {event : Async.Event Thread}
    {emitted : List (Async.Obs Thread)}
    (sound : Sound config state)
    (positive : 0 < config.policy.queueCapacity)
    (step : Async.Step config state event emitted next) :
    Sound config next := by
  have core :
      DrainLoop.Linked next.core ∧
        Queue.Defined next.core.shared ∧
        Queue.Bounded next.core.shared ∧
        next.core.shared.queue.capacity =
          config.policy.queueCapacity := by
    rcases step.core_cases with ⟨same, _⟩ | ⟨called, taken⟩
    · rw [same]
      exact ⟨sound.coreLinked, sound.defined, sound.bounded,
        sound.capacity⟩
    · have moved := DrainLoop.Step.of_step? taken
      exact ⟨sound.coreLinked.step moved,
        sound.core_step positive moved⟩
  exact {
    linked := sound.linked.step step
    coreLinked := core.1
    defined := core.2.1
    bounded := core.2.2.1
    settlesOne := sound.settlesOne.step sound.bounded step
    uniform := sound.uniform.step step
    capacity := core.2.2.2
  }

/-- A failing `push` keeps client and queue linked. -/
private theorem linked_of_throw
    (sound : Sound config state)
    {thread : Thread}
    {victim : Option (Item Thread)}
    {shared : Queue.State (DrainLoop.Party Thread) LogEntry}
    (thrown :
      Queue.Throw state.core.shared (.client thread) victim shared) :
    Linked
        { state.moveTo thread .idle with
          core := { state.core with shared := shared } } ∧
      DrainLoop.Linked { state.core with shared := shared } := by
  have moved := thrown.phase_eq.2.2
  refine ⟨{
    clients := ?_
    stage := sound.linked.stage
    destroyer := ?_
  }, {
    worker := ?_
    clients := ?_
    batch := sound.coreLinked.batch
    position := sound.coreLinked.position
    blank := thrown.blank sound.coreLinked.blank
  }⟩
  · intro other
    rw [moved]
    by_cases same : other = thread
    · subst same
      simp [Queue.Phase.member?, Phase.member?]
    · simpa [same] using sound.linked.clients other
  · exact forall_update
      (fun other (phase : Phase Thread) =>
        phase.Destroying → state.destroyer = some other)
      (fun other _ => sound.linked.destroyer other)
      (fun inside => inside.elim)
  · simpa [moved] using sound.coreLinked.worker
  · intro other
    rw [moved]
    by_cases same : other = thread
    · subst same
      simp [Queue.Phase.member?]
    · simpa [same] using sound.coreLinked.clients other

/-- A failing `push` keeps the invariants. -/
private theorem throw
    (sound : Sound config state)
    {thread : Thread}
    {victim : Option (Item Thread)}
    {shared : Queue.State (DrainLoop.Party Thread) LogEntry}
    (thrown :
      Queue.Throw state.core.shared (.client thread) victim shared) :
    Sound config
      { state.moveTo thread .idle with
        core := { state.core with shared := shared } } where
  linked := (sound.linked_of_throw thrown).1
  coreLinked := (sound.linked_of_throw thrown).2
  defined := thrown.defined sound.defined
  bounded := thrown.bounded sound.bounded
  settlesOne :=
    forall_update
      (fun _ (phase : Phase Thread) =>
        ∀ item undelivered,
          phase = .logSettling item undelivered → undelivered = 1)
      (fun other _ => sound.settlesOne other)
      (by simp)
  uniform := by
    intro other item policy phase
    rw [thrown.phase_eq.2.2] at phase
    by_cases same : other = thread
    · subst same
      simp at phase
    · refine sound.uniform other item policy ?_
      simpa [same] using phase
  capacity := thrown.capacity_eq.trans sound.capacity

/-- Every step keeps the invariants. -/
theorem step
    (sound : Sound config state)
    (positive : 0 < config.policy.queueCapacity)
    (step : Step config state event emitted next) :
    Sound config next := by
  cases step with
  | regular event emitted next step =>
      exact sound.regular positive step
  | throw thread victim shared next pushing thrown moved =>
      subst moved
      exact sound.throw thrown

/-- In every reachable state the invariants hold. -/
theorem of_reaches
    {observed : List (Obs Thread)}
    (positive : 0 < config.policy.queueCapacity)
    (reached : (machine Thread config).Reaches observed state) :
    Sound config state := by
  have regularly :
      (Async.machine Thread config).Reaches [] (.initial config) :=
    .init
  exact reached.invariant
    (fun _ state => Sound config state)
    {
      linked := .of_reaches regularly
      coreLinked := .of_reaches (reaches_core regularly)
      defined := .of_reaches positive (reaches_queue regularly)
      bounded := .of_reaches (reaches_queue regularly)
      settlesOne := .of_reaches regularly
      uniform := .of_reaches regularly
      capacity := rfl
    }
    (fun _ sound _ taken => sound.step positive (Step.of_step? taken))

end Sound

/-! ## The leak -/

omit [DecidableEq Thread] in
/-- The leaks of two parts of a record add up. -/
theorem leaked_append
    (first second : List (Obs Thread)) :
    leaked (first ++ second) = leaked first + leaked second := by
  simp [leaked]

omit [DecidableEq Thread] in
/-- Steps of a logger that does not fail leak nothing. -/
theorem leaked_regular
    (seen : List (Async.Obs Thread))
    (caller : Option Thread)
    (changed : Thread → Change Thread) :
    leaked
        (seen.map .seen ++
          caller.toList.map fun thread =>
            .changed thread (changed thread)) =
      0 := by
  rw [leaked, List.sum_eq_zero_iff]
  intro amount isLeak
  simp only [List.map_append, List.map_map, List.mem_append,
    List.mem_map] at isLeak
  rcases isLeak with ⟨_, _, rfl⟩ | ⟨_, _, rfl⟩ <;> rfl

variable [Fintype Thread]

/-- A failing `push` leaves its own count and that of its victim behind. -/
private theorem balancedUpTo_throw
    {leak : Nat}
    (balanced : BalancedUpTo leak state)
    {thread : Thread}
    (pushing : state.phase thread = .logPushing)
    {victim : Option (Item Thread)}
    {shared : Queue.State (DrainLoop.Party Thread) LogEntry}
    (thrown :
      Queue.Throw state.core.shared (.client thread) victim shared) :
    BalancedUpTo (leak + (1 + victim.toList.length))
      { state.moveTo thread .idle with
        core := { state.core with shared := shared } } := by
  have loads := thrown.load_eq
  have shares :=
    sum_change
      (fun other => (state.phase other).share)
      (fun other =>
        (Function.update state.phase thread .idle other).share)
      thread
      (fun other different => by simp [different])
  rw [pushing, Function.update_self] at shares
  change _ + 0 = _ + 0 at shares
  have same :
      ({ state.moveTo thread .idle with
          core := { state.core with shared := shared } } :
        State Thread).batchShare =
        state.batchShare :=
    State.batchShare_congr rfl rfl rfl
  unfold BalancedUpTo at balanced ⊢
  rw [same]
  simp only [State.phase_moveTo, State.pending_moveTo]
  omega

/-- Every step keeps `pending_` balanced up to the leak. -/
private theorem Step.balancedUpTo
    {observed : List (Obs Thread)}
    (step : Step config state event emitted next)
    (sound : Sound config state)
    (balanced : BalancedUpTo (leaked observed) state) :
    BalancedUpTo (leaked (observed ++ emitted)) next := by
  rw [leaked_append]
  cases step with
  | regular event emitted next step =>
      rw [leaked_regular]
      exact balanced.step sound.coreLinked sound.linked step
  | throw thread victim shared next pushing thrown moved =>
      subst moved
      simpa [leaked, Obs.leak] using
        balancedUpTo_throw balanced pushing thrown

/-- `pending_` is the number of outstanding entries and all that has leaked. -/
theorem pending_eq_outstanding_add_leaked
    {observed : List (Obs Thread)}
    (positive : 0 < config.policy.queueCapacity)
    (reached : (machine Thread config).Reaches observed state) :
    state.pending = outstanding state + leaked observed := by
  have sound := Sound.of_reaches positive reached
  have balanced : BalancedUpTo (leaked observed) state :=
    reached.invariant
      (fun observed state => BalancedUpTo (leaked observed) state)
      (show BalancedUpTo 0 _ from .initial config)
      (fun before balanced _ taken =>
        (Step.of_step? taken).balancedUpTo
          (Sound.of_reaches positive before) balanced)
  exact balanced.pending_eq sound.linked sound.coreLinked
    sound.defined sound.bounded sound.settlesOne

end Steps

end ConcLogger.Async.Failing
