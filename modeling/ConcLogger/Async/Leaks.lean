import Mathlib.Algebra.Order.Group.Multiset
import Mathlib.Algebra.Order.Sub.Basic
import Mathlib.Algebra.Ring.Int.Defs
import ConcLogger.Async.Exceptions
import ConcLogger.Async.Flush
import ConcLogger.Async.Shutdown

namespace ConcLogger.Async.Failing

open Concurrency

/-!
# A failed `log()` call is never paid back

While the entry of a call is undecided, the call itself has done nothing but
its `fetch_add`.  If `push_back` throws then, the increment stays, and so does
that of a victim; `pending_` never comes down to zero again.
-/

variable
  {Thread : Type}
  [DecidableEq Thread]

/-! ## The ledger of a call -/

/-- What a client has done to `pending_` and `data_` once one thing more is seen. -/
def account
    (thread : Thread)
    (total : Change Thread) :
    Obs Thread → Change Thread
  | .seen (.logCalled caller _ _) =>
      if caller = thread then 0 else total
  | .changed caller change =>
      if caller = thread then total + change else total
  | _ => total

/-- What a client has done to `pending_` and `data_` since it last called `log`. -/
def netChange
    (observed : List (Obs Thread))
    (thread : Thread) : Change Thread :=
  observed.foldl (account thread) 0

/--
A `log()` call that has exited by an exception has left the logger intact: on
balance it has neither changed `pending_` nor removed an entry, `pending_` is
the number of outstanding entries, and `flush()` can still return.
-/
structure LeftIntact
    [Fintype Thread]
    (config : LoggerConfig)
    (observed : List (Obs Thread))
    (state : State Thread)
    (thread : Thread) : Prop where
  pending :
    (netChange observed thread).1 = 0
  data :
    (netChange observed thread).2 = 0
  accounted :
    state.pending = outstanding state
  flushable :
    ∀ flusher,
      state.phase flusher = .idle →
      ∃ events final later,
        (machine Thread config).run? state events =
            some (final, later) ∧
          .seen (.flushReturned flusher) ∈ later

/-- What a `log()` call has done so far, while its entry is undecided. -/
def charge?
    (state : State Thread)
    (thread : Thread) : Option (Change Thread) :=
  match state.phase thread with
  | .logCounting _ => some 0
  | .logPushing => if state.inFlight thread then some (1, 0) else none
  | _ => none

/-- Every call under way has been charged with what it has done. -/
def Charged (observed : List (Obs Thread)) (state : State Thread) : Prop :=
  ∀ thread total,
    charge? state thread = some total →
    netChange observed thread = total

section Charges

variable
  {config : LoggerConfig}
  {state next : State Thread}
  {event : Async.Event Thread}
  {emitted : List (Async.Obs Thread)}
  {thread mover : Thread}
  {total : Change Thread}

omit [DecidableEq Thread] in
/-- The charge depends on where the client is inside `log` and `push` only. -/
private theorem charge?_congr
    (phase : next.phase thread = state.phase thread)
    (inQueue :
      next.core.shared.phase (.client thread) =
        state.core.shared.phase (.client thread)) :
    charge? next thread = charge? state thread := by
  unfold charge? State.inFlight
  rw [phase, inQueue]

omit [DecidableEq Thread] in
/-- A call is charged before its `fetch_add` or while its item is undecided. -/
private theorem cases_of_charge?
    (charged : charge? state thread = some total) :
    (∃ entry,
        state.phase thread = .logCounting entry ∧ total = 0) ∨
      ∃ item,
        state.phase thread = .logPushing ∧
          (state.core.shared.phase (.client thread)).undecided? =
            some item ∧
          total = (1, 0) := by
  unfold charge? at charged
  split at charged
  · rename_i entry phase
    exact Or.inl ⟨entry, phase, (Option.some.inj charged).symm⟩
  · rename_i phase
    split at charged
    · rename_i inFlight
      obtain ⟨item, undecided⟩ := Option.isSome_iff_exists.mp inFlight
      exact Or.inr
        ⟨item, phase, undecided, (Option.some.inj charged).symm⟩
    · cases charged
  · cases charged

omit [DecidableEq Thread] in
/-- A call whose item is undecided is charged with its `fetch_add`. -/
private theorem charge?_of_undecided
    {item : Item Thread}
    (phase : state.phase thread = .logPushing)
    (undecided :
      (state.core.shared.phase (.client thread)).undecided? =
        some item) :
    charge? state thread = some (1, 0) := by
  simp [charge?, phase, State.inFlight, undecided]

/-- A client that moves outside the queue leaves the other charges alone. -/
private theorem charge?_moveTo
    (other : thread ≠ mover)
    (phase : Phase Thread) :
    charge? (state.moveTo mover phase) thread = charge? state thread :=
  charge?_congr (by simp [other]) rfl

/-- A step that leaves `pending_` and the queue alone changes nothing. -/
private theorem change_eq_zero
    (pending : next.pending = state.pending)
    (queue : next.core.shared.queue = state.core.shared.queue) :
    change state next = 0 := by
  unfold change
  rw [pending, queue, sub_self, tsub_self]
  rfl

/-- A client outside the step of another keeps its charge. -/
private theorem charge?_of_client
    (step : ClientStep config state mover emitted next)
    (other : thread ≠ mover) :
    charge? next thread = charge? state thread := by
  have inQueue :
      next.core.shared.phase (.client thread) =
        state.core.shared.phase (.client thread) := by
    rcases step.core_cases with ⟨same, _⟩ | ⟨called, owner, taken⟩
    · rw [same]
    · apply (DrainLoop.Step.of_step? taken).phase_of_other
      simpa [owner] using other.symm
  refine charge?_congr ?_ inQueue
  cases step <;> exact Function.update_of_ne other _ _

/-- A client's own step outside the queue charges it for the `fetch_add`. -/
private theorem charge?_of_mover
    (step : ClientStep config state thread emitted next)
    (charged : charge? next thread = some total) :
    (∀ level message, .logCalled thread level message ∉ emitted) ∧
      charge? state thread = some 0 ∧
      change state next = total := by
  rcases cases_of_charge? charged with
    ⟨entry, phase, _⟩ | ⟨item, phase, undecided, rfl⟩
  · cases step with
    | pushed | settle =>
        simp only [State.phase_moveTo, Function.update_self] at phase
        split at phase <;> cases phase
    | _ =>
        simp at phase
  · cases step with
    | count entry core seen counting taken =>
        have inside := DrainLoop.State.queueStep_of_shared? rfl taken
        have queue := (inside.queue_eq_of_undecided undecided).1
        refine ⟨by simp, by simp [charge?, counting], ?_⟩
        simp only [change]
        rw [queue, tsub_self]
        simp
    | pushed | settle =>
        simp only [State.phase_moveTo, Function.update_self] at phase
        split at phase <;> cases phase
    | _ =>
        simp at phase

/-- The worker's steps leave the charges of the clients alone. -/
private theorem charge?_of_worker
    (step : WorkerStep config state emitted next) :
    charge? next thread = charge? state thread := by
  refine charge?_congr (by rw [step.clients_eq.1]) ?_
  rcases step.core_cases with ⟨same, _⟩ | taken
  · rw [same]
  · exact (DrainLoop.Step.of_step? taken).clients_of_worker.1 thread

/-- A call is seen in the step of its caller. -/
private theorem caller?_of_logCalled
    (step : Async.Step config state event emitted next)
    {level : LogLevel}
    {message : String}
    (called : .logCalled thread level message ∈ emitted) :
    caller? event = some thread := by
  cases step with
  | log mover =>
      simp only [List.mem_singleton, Async.Obs.logCalled.injEq] at called
      exact congrArg some called.1.symm
  | client mover emitted next step =>
      cases step <;> simp at called
  | worker event emitted next isWorker step =>
      cases step <;> simp [State.settling] at called
  | _ =>
      simp at called

omit [DecidableEq Thread] in
/-- Whose step an event inside the queue is. -/
private theorem caller?_cases_of_core?
    {called : DrainLoop.Event Thread LogEntry}
    {inner : Queue.Event (DrainLoop.Party Thread) LogEntry}
    (isCore : event.core? = some called)
    (isInner : called.shared? = some inner) :
    (caller? event = some thread ∧
        inner.thread = .client thread ∧
        ∀ operation, inner ≠ .call (.client thread) operation) ∨
      (caller? event ≠ some thread ∧
        (inner.thread ≠ .client thread ∨
          ∃ party, inner = .wake party)) := by
  cases event with
  | advance party | notifyOne party chosen =>
      cases isCore
      cases isInner
      cases party with
      | worker =>
          exact Or.inr ⟨by simp [caller?], Or.inl (by simp [Queue.Event.thread])⟩
      | client mover =>
          by_cases same : mover = thread
          · subst same
            exact Or.inl ⟨rfl, rfl, by simp⟩
          · exact Or.inr
              ⟨by simpa [caller?] using same,
                Or.inl (by simpa [Queue.Event.thread] using same)⟩
  | wakeQueue party =>
      cases isCore
      cases isInner
      exact Or.inr ⟨by simp [caller?], Or.inr ⟨party, rfl⟩⟩
  | _ =>
      cases isCore

/-- A step inside `push` that leaves the item undecided changes nothing. -/
private theorem charge?_of_inner
    (linked : Linked state)
    {core : DrainLoop.State Thread LogEntry}
    {called : DrainLoop.Event Thread LogEntry}
    {inner : Queue.Event (DrainLoop.Party Thread) LogEntry}
    {seen : List (Queue.Obs (DrainLoop.Party Thread) LogEntry)}
    (isInner : called.shared? = some inner)
    (taken : state.core.step? called = some (core, seen))
    (isCaller : inner.thread = .client thread)
    (noCall : ∀ operation, inner ≠ .call (.client thread) operation)
    (charged :
      charge? { state with core := core } thread = some total) :
    charge? state thread = some total ∧
      core.shared.queue = state.core.shared.queue := by
  have inside := DrainLoop.State.queueStep_of_shared? isInner taken
  rcases cases_of_charge? charged with
    ⟨entry, phase, rfl⟩ | ⟨item, phase, undecided, rfl⟩
  · change state.phase thread = .logCounting entry at phase
    have member := linked.clients thread
    rw [phase] at member
    refine ⟨by simp [charge?, phase], ?_⟩
    apply inside.queue_eq_of_idle
    rw [isCaller]
    exact Queue.Phase.eq_idle_of_member? member
  · rw [← isCaller] at undecided
    obtain ⟨queue, before | ⟨value, policy, call⟩⟩ :=
      inside.queue_eq_of_undecided undecided
    · rw [isCaller] at before
      exact ⟨charge?_of_undecided phase before, queue⟩
    · rw [isCaller] at call
      exact (noCall _ call).elim

/--
After a regular step the charge of a call is the old one and, for the caller,
what the step has changed; a call that has just begun starts from nothing.
-/
private theorem charge_cases
    (linked : Linked state)
    (step : Async.Step config state event emitted next)
    (charged : charge? next thread = some total) :
    (caller? event ≠ some thread ∧
        charge? state thread = some total) ∨
      (caller? event = some thread ∧
        (∃ level message, emitted = [.logCalled thread level message]) ∧
        change state next = total) ∨
      (caller? event = some thread ∧
        (∀ level message, .logCalled thread level message ∉ emitted) ∧
        ∃ before,
          charge? state thread = some before ∧
            before + change state next = total) := by
  cases step with
  | log mover level message withThreadDump environment phase idle
      admitted =>
      by_cases same : thread = mover
      · subst same
        refine Or.inr (Or.inl ⟨rfl, ⟨level, message, rfl⟩, ?_⟩)
        have nothing : change state (state.moveTo thread phase) = 0 :=
          change_eq_zero rfl rfl
        rw [nothing]
        rcases admitted with ⟨_, rfl⟩ | ⟨entry, _, rfl⟩
        · simp [charge?] at charged
        · simpa [charge?] using charged
      · refine Or.inl ⟨by simpa [caller?, eq_comm] using same, ?_⟩
        rwa [charge?_moveTo same] at charged
  | flush mover idle =>
      by_cases same : thread = mover
      · subst same
        simp [charge?] at charged
      · refine Or.inl ⟨by simpa [caller?, eq_comm] using same, ?_⟩
        rwa [charge?_moveTo same] at charged
  | destroy mover idle =>
      by_cases same : thread = mover
      · subst same
        simp [charge?] at charged
      · refine Or.inl ⟨by simpa [caller?, eq_comm] using same, ?_⟩
        exact (charge?_moveTo same .destroyStop).symm.trans charged
  | client mover emitted next step =>
      by_cases same : thread = mover
      · subst same
        obtain ⟨silent, before, changed⟩ := charge?_of_mover step charged
        exact Or.inr (Or.inr
          ⟨rfl, silent, 0, before, by rw [changed, zero_add]⟩)
      · refine Or.inl ⟨by simpa [caller?, eq_comm] using same, ?_⟩
        rwa [← charge?_of_client step same]
  | worker event emitted next isWorker step =>
      have nobody : caller? event = none := by
        rcases isWorker with rfl | ⟨position, todo, rfl, _⟩ <;> rfl
      refine Or.inl ⟨by simp [nobody], ?_⟩
      rwa [← charge?_of_worker step]
  | inner event called core seen isCore taken =>
      have other := Event.ne_worker_of_core? isCore
      obtain ⟨inner, isInner⟩ := DrainLoop.Event.exists_shared? other
      have inside := DrainLoop.State.queueStep_of_shared? isInner taken
      rcases caller?_cases_of_core? isCore isInner with
        ⟨isCaller, mover, noCall⟩ | ⟨otherCaller, elsewhere⟩
      · obtain ⟨before, queue⟩ :=
          charge?_of_inner linked isInner taken mover noCall charged
        have nothing :
            change state { state with core := core } = 0 :=
          change_eq_zero rfl queue
        exact Or.inr (Or.inr
          ⟨isCaller, by simp, total, before, by rw [nothing, add_zero]⟩)
      · refine Or.inl ⟨otherCaller, ?_⟩
        have inQueue :
            core.shared.phase (.client thread) =
              state.core.shared.phase (.client thread) := by
          rcases elsewhere with different | ⟨party, rfl⟩
          · exact inside.phase_other different.symm
          · exact congrFun inside.phase_of_wake _
        have same :
            charge? { state with core := core } thread =
              charge? state thread :=
          charge?_congr rfl inQueue
        rwa [same] at charged
  | wake mover asleep =>
      exact Or.inl ⟨by simp [caller?], charged⟩

/-- What does not concern a client leaves its account alone. -/
private theorem foldl_account
    {record : List (Obs Thread)}
    (silent :
      ∀ seen ∈ record,
        ∀ total, account thread total seen = total)
    (total : Change Thread) :
    record.foldl (account thread) total = total := by
  induction record with
  | nil =>
      rfl
  | cons seen rest inductionHypothesis =>
      rw [List.foldl_cons, silent seen (by simp)]
      exact inductionHypothesis fun later isLater =>
        silent later (List.mem_cons_of_mem seen isLater)

/-- Only the calls of a client concern its account in a regular step. -/
private theorem foldl_account_seen
    (silent :
      ∀ level message, .logCalled thread level message ∉ emitted)
    (total : Change Thread) :
    (emitted.map .seen).foldl (account thread) total = total := by
  apply foldl_account
  intro seen isSeen total
  obtain ⟨observation, isEmitted, rfl⟩ := List.mem_map.mp isSeen
  cases observation with
  | logCalled caller level message =>
      have different : caller ≠ thread := by
        rintro rfl
        exact silent level message isEmitted
      simp [account, different]
  | _ =>
      rfl

/-- The change that a step of the client has made is put down to it. -/
private theorem netChange_regular
    {observed : List (Obs Thread)}
    (charged : Charged observed state)
    (linked : Linked state)
    (step : Async.Step config state event emitted next)
    (after : charge? next thread = some total) :
    netChange
        (observed ++
          (emitted.map .seen ++
            (caller? event).toList.map fun thread =>
              .changed thread (change state next)))
        thread =
      total := by
  rw [netChange, List.foldl_append, List.foldl_append]
  rcases charge_cases linked step after with
    ⟨other, before⟩ | ⟨isCaller, ⟨level, message, rfl⟩, changed⟩ |
    ⟨isCaller, silent, before, charge, changed⟩
  · have uncalled :
        ∀ level message, .logCalled thread level message ∉ emitted :=
      fun _ _ called => other (caller?_of_logCalled step called)
    rw [foldl_account_seen uncalled]
    refine (foldl_account ?_ _).trans (charged thread total before)
    intro seen isSeen total
    obtain ⟨caller, isCaller, rfl⟩ := List.mem_map.mp isSeen
    rw [Option.mem_toList] at isCaller
    have different : caller ≠ thread := by
      rintro rfl
      exact other isCaller
    simp [account, different]
  · simp [isCaller, account, changed]
  · rw [foldl_account_seen silent]
    have soFar : observed.foldl (account thread) 0 = before :=
      charged thread before charge
    simp [isCaller, account, soFar, changed]

/-- What a failing `push` changes is its victim. -/
private theorem change_of_throw
    {victim : Option (Item Thread)}
    {shared : Queue.State (DrainLoop.Party Thread) LogEntry}
    (thrown :
      Queue.Throw state.core.shared (.client thread) victim shared)
    (pending : next.pending = state.pending)
    (inQueue : next.core.shared = shared) :
    change state next = (0, (victim.toList : Multiset (Item Thread))) := by
  unfold change
  rw [pending, inQueue, sub_self, thrown.data_eq, ← Multiset.coe_add,
    add_tsub_cancel_right]

/-- The failed call has counted its entry and has taken out its victim. -/
private theorem netChange_throw
    {observed : List (Obs Thread)}
    (charged : Charged observed state)
    (pushing : state.phase thread = .logPushing)
    {victim : Option (Item Thread)}
    {shared : Queue.State (DrainLoop.Party Thread) LogEntry}
    (thrown :
      Queue.Throw state.core.shared (.client thread) victim shared)
    (pending : next.pending = state.pending)
    (inQueue : next.core.shared = shared) :
    netChange
        (observed ++
          [.changed thread (change state next), .threw thread victim])
        thread =
      (1, (victim.toList : Multiset (Item Thread))) := by
  obtain ⟨item, undecided⟩ := thrown.phase_eq.1
  have before : observed.foldl (account thread) 0 = (1, 0) :=
    charged thread _ (charge?_of_undecided pushing undecided)
  rw [netChange, List.foldl_append, before,
    change_of_throw thrown pending inQueue]
  simp [account]

/-- Every step keeps the charges. -/
theorem Charged.step
    {observed emitted : List (Obs Thread)}
    {event : Event Thread}
    (charged : Charged observed state)
    (linked : Linked state)
    (step : Step config state event emitted next) :
    Charged (observed ++ emitted) next := by
  intro thread total after
  cases step with
  | regular event emitted next step =>
      exact netChange_regular charged linked step after
  | throw mover victim shared next pushing thrown moved =>
      subst moved
      by_cases same : thread = mover
      · subst same
        simp [charge?] at after
      · have before : charge? state thread = some total := by
          rw [← after]
          refine (charge?_congr ?_ ?_).symm
          · simp [same]
          · simp [thrown.phase_eq.2.2, same]
        rw [netChange, List.foldl_append]
        refine (foldl_account ?_ _).trans (charged thread total before)
        intro seen isSeen total
        rcases List.mem_pair.mp isSeen with rfl | rfl
        · simp [account, Ne.symm same]
        · rfl

/-- In every reachable state the calls under way are charged. -/
theorem Charged.of_reaches
    {observed : List (Obs Thread)}
    (positive : 0 < config.policy.queueCapacity)
    (reached : (machine Thread config).Reaches observed state) :
    Charged observed state :=
  reached.invariant Charged
    (by
      intro thread total charged
      cases charged)
    (fun before charged _ taken =>
      charged.step (Sound.of_reaches positive before).linked
        (Step.of_step? taken))

end Charges

/-! ## After a failure -/

section Afterwards

variable
  {config : LoggerConfig}
  {state next : State Thread}
  {observed : List (Obs Thread)}
  {flusher : Thread}

/-- Only a `flush()` that finds `pending_` at zero goes on to the sinks. -/
private theorem pending_eq_zero_of_flushSinks
    {event : Async.Event Thread}
    {emitted : List (Async.Obs Thread)}
    (step : Async.Step config state event emitted next)
    (outside :
      ∀ position, state.phase flusher ≠ .flushSinks position)
    {position : Nat}
    (inside : next.phase flusher = .flushSinks position) :
    state.pending = 0 := by
  have mover
      {thread : Thread}
      {phase : Phase Thread}
      (moved :
        Function.update state.phase thread phase flusher =
          .flushSinks position) :
      flusher = thread ∧ phase = .flushSinks position := by
    by_cases same : flusher = thread
    · subst same
      exact ⟨rfl, by simpa using moved⟩
    · rw [Function.update_of_ne same] at moved
      exact (outside position moved).elim
  cases step with
  | log thread level message withThreadDump environment phase idle
      admitted =>
      obtain ⟨rfl, rfl⟩ := mover inside
      rcases admitted with ⟨_, shape⟩ | ⟨entry, _, shape⟩ <;>
        cases shape
  | flush thread | destroy thread =>
      cases (mover inside).2
  | client thread emitted next step =>
      cases step with
      | flushPass awaiting free zero =>
          exact zero
      | flushSink earlier phase =>
          obtain ⟨rfl, _⟩ := mover inside
          exact (outside earlier phase).elim
      | pushed | settle =>
          have shape := (mover inside).2
          split at shape <;> cases shape
      | _ =>
          cases (mover inside).2
  | worker event emitted next isWorker step =>
      rw [step.clients_eq.1] at inside
      exact (outside position inside).elim
  | inner | wake =>
      exact (outside position inside).elim

variable [Fintype Thread]

/-- Once a call has failed, `flush()` callers wait for ever. -/
theorem flush_blocked_of_leaked
    (positive : 0 < config.policy.queueCapacity)
    (reached : (machine Thread config).Reaches observed state)
    (leaking : 0 < leaked observed)
    (outside :
      ∀ position, state.phase flusher ≠ .flushSinks position)
    {events : List (Event Thread)}
    {final : State Thread}
    {later : List (Obs Thread)}
    (executed :
      (machine Thread config).run? state events =
        some (final, later)) :
    .seen (.flushReturned flusher) ∉ later := by
  have safe :=
    reached.run_safe
      (fun observed state =>
        0 < leaked observed ∧
          ∀ position, state.phase flusher ≠ .flushSinks position)
      (fun seen => seen ≠ .seen (.flushReturned flusher))
      ?_ ⟨leaking, outside⟩
      (Machine.runsBy_of_forall (fun _ _ => trivial) state events)
      executed
  · exact fun returned => safe.2 _ returned rfl
  · intro observed emitted state next event reached waiting _ taken
    obtain ⟨leaking, outside⟩ := waiting
    have counted := pending_eq_outstanding_add_leaked positive reached
    cases Step.of_step? taken with
    | regular event emitted next step =>
        refine ⟨⟨?_, ?_⟩, ?_⟩
        · rw [leaked_append]
          omega
        · intro position inside
          have zero := pending_eq_zero_of_flushSinks step outside inside
          omega
        · rintro seen isSeen rfl
          rcases List.mem_append.mp isSeen with regular | changed
          · obtain ⟨observation, isEmitted, shape⟩ :=
              List.mem_map.mp regular
            cases shape
            obtain ⟨position, inside, _⟩ :=
              step.flushSinks_of_returned isEmitted
            exact outside position inside
          · simp at changed
    | throw thread victim shared next pushing thrown moved =>
        subst moved
        refine ⟨⟨?_, ?_⟩, by simp⟩
        · rw [leaked_append]
          omega
        · exact forall_update
            (fun other (phase : Phase Thread) =>
              other = flusher →
              ∀ position, phase ≠ .flushSinks position)
            (fun other _ same => by
              subst same
              exact outside)
            (by simp) flusher rfl

/--
No `log()` call that exits by an exception leaves the logger intact.  Its
increment stays in `pending_`, together with the one of the entry that it may
have evicted from a full deque under `DROP_OLDEST`, so `pending_` exceeds the
outstanding entries from then on, and no `flush()` returns that has not found
`pending_` at zero before.
-/
theorem failed_push_leaves_pending_behind
    {emitted : List (Obs Thread)}
    {thread : Thread}
    (positive : 0 < config.policy.queueCapacity)
    (reached : (machine Thread config).Reaches observed state)
    (threw :
      (machine Thread config).step? state (.throw thread) =
        some (next, emitted)) :
    ¬ LeftIntact config (observed ++ emitted) next thread ∧
      (∃ victim : Option (Item Thread),
        netChange (observed ++ emitted) thread =
            (1, (victim.toList : Multiset (Item Thread))) ∧
          (victim ≠ none ↔
            config.policy.overflowPolicy = .dropOldest ∧
              config.policy.queueCapacity ≤
                state.core.shared.queue.data.length) ∧
          next.pending =
            outstanding next +
              (leaked observed + 1 + victim.toList.length)) ∧
      ∀ flusher,
        (∀ position, next.phase flusher ≠ .flushSinks position) →
        ∀ events final later,
          (machine Thread config).run? next events =
              some (final, later) →
          .seen (.flushReturned flusher) ∉ later := by
  have after := reached.step (.throw thread) trivial threw
  have counted := pending_eq_outstanding_add_leaked positive after
  have sound := Sound.of_reaches positive reached
  have taken : step? config state (.throw thread) = some (next, emitted) :=
    threw
  cases Step.of_step? taken with
  | throw _ victim shared _ pushing thrown moved =>
      have charge :
          netChange
              (observed ++
                [.changed thread (change state next),
                  .threw thread victim])
              thread =
            (1, (victim.toList : Multiset (Item Thread))) :=
        netChange_throw
          (Charged.of_reaches positive reached) pushing thrown
          (by rw [moved, State.pending_moveTo]) (by rw [moved])
      have amount :
          leaked
              (observed ++
                [.changed thread (change state next),
                  .threw thread victim]) =
            leaked observed + (1 + victim.toList.length) := by
        rw [leaked_append]
        simp [leaked, Obs.leak]
      refine ⟨?_, ⟨victim, charge, ?_, ?_⟩, ?_⟩
      · intro intact
        have unchanged := intact.pending
        rw [charge] at unchanged
        cases unchanged
      · rw [← sound.capacity]
        rcases thrown.victim_cases with
          ⟨rfl, room⟩ | ⟨item, oldest, rfl, phase, full⟩
        · simp only [ne_eq, not_true_eq_false, false_iff, not_and]
          omega
        · have policy := sound.uniform thread item .dropOldest phase
          simp [← policy, full]
      · omega
      · intro flusher outside events final later executed
        exact flush_blocked_of_leaked positive after (by omega)
          outside executed

end Afterwards

/-- One place in the queue, and the oldest entry makes room. -/
def oneSlot : LoggerConfig where
  module := "net"
  sinkCount := 1
  policy := { queueCapacity := 1, overflowPolicy := .dropOldest }

/-- One entry is queued, and a second call is about to insert its own. -/
def secondCallInserts : List (Event (Fin 2)) :=
  [.regular (.log 0 .warn "first" false ⟨0, ⟨0, 1, 1, false, 0, 0⟩⟩),
    .regular (.client 0), .regular (.advance (.client 0)),
    .regular (.notifyOne (.client 0) .worker), .regular (.client 0),
    .regular (.client 0),
    .regular (.log 1 .warn "second" false ⟨1, ⟨0, 1, 1, false, 0, 0⟩⟩),
    .regular (.client 1)]

/--
The second call evicts the first entry and fails: it leaves two counts and an
empty deque behind.
-/
theorem failing_eviction_leaves_two_counts :
    ∃ (observed emitted : List (Obs (Fin 2)))
      (state next : State (Fin 2)),
      (machine (Fin 2) oneSlot).Reaches observed state ∧
        (machine (Fin 2) oneSlot).step? state (.throw 1) =
          some (next, emitted) ∧
        next.pending = 2 ∧
        next.core.shared.queue.data = [] ∧
        ¬ LeftIntact oneSlot (observed ++ emitted) next 1 := by
  obtain ⟨observed, state, reached, feature⟩ :=
    (machine (Fin 2) oneSlot).exists_reaches secondCallInserts
      (fun observed state =>
        match (machine (Fin 2) oneSlot).step? state (.throw 1) with
        | some (next, emitted) =>
            next.pending == 2 && next.core.shared.queue.data.isEmpty &&
              (netChange (observed ++ emitted) 1).1 == 1
        | none => false)
      (by decide +kernel)
  split at feature
  · rename_i next emitted threw
    simp only [Bool.and_eq_true, beq_iff_eq,
      List.isEmpty_iff] at feature
    obtain ⟨⟨pending, nothing⟩, charge⟩ := feature
    refine ⟨observed, emitted, state, next, reached, threw, pending,
      nothing, ?_⟩
    intro intact
    have unchanged := intact.pending
    omega
  · cases feature

/-- After that failure a `flush()` by the other thread waits for ever. -/
theorem failed_push_leaves_pending_behind_after_eviction :
    ∃ (observed emitted : List (Obs (Fin 2)))
      (state next : State (Fin 2))
      (victim : Item (Fin 2)),
      (machine (Fin 2) oneSlot).Reaches observed state ∧
        (machine (Fin 2) oneSlot).step? state (.throw 1) =
          some (next, emitted) ∧
        netChange (observed ++ emitted) 1 = (1, {victim}) ∧
        ∀ events final later,
          (machine (Fin 2) oneSlot).run? next events =
              some (final, later) →
          .seen (.flushReturned 0) ∉ later := by
  obtain ⟨observed, state, reached, feature⟩ :=
    (machine (Fin 2) oneSlot).exists_reaches secondCallInserts
      (fun _ state =>
        ((machine (Fin 2) oneSlot).step? state (.throw 1)).any
          fun (result : State (Fin 2) × List (Obs (Fin 2))) =>
            state.core.shared.queue.data.length == 1 &&
              decide (result.1.phase 0 = .idle))
      (by decide +kernel)
  rw [Option.any_eq_true] at feature
  obtain ⟨⟨next, emitted⟩, threw, feature⟩ := feature
  simp only [Bool.and_eq_true, beq_iff_eq, decide_eq_true_eq] at feature
  obtain ⟨_, ⟨victim, charge, evicted, _⟩, blocked⟩ :=
    failed_push_leaves_pending_behind (by decide) reached threw
  obtain ⟨victim, rfl⟩ :=
    Option.ne_none_iff_exists'.mp
      (evicted.mpr ⟨rfl, feature.1.ge⟩)
  refine ⟨observed, emitted, state, next, victim, reached, threw,
    charge, ?_⟩
  apply blocked 0
  intro position inside
  rw [feature.2] at inside
  cases inside

end ConcLogger.Async.Failing
