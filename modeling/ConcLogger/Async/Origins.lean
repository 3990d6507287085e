import ConcLogger.Async.Delivery

namespace ConcLogger.Async

open Concurrency

/-!
# Where losses, stops and returns come from

All pushes of a logger use its own overflow policy and only the destructor
stops its queue, so the kind of a loss tells the policy.  A `log()` call that
was not filtered returns after its entry has been decided.
-/

variable {Thread : Type}

section Steps

variable
  [DecidableEq Thread]
  {config : LoggerConfig}
  {state next : State Thread}
  {event : Event Thread}
  {emitted : List (Obs Thread)}

/-- A step leaves the deque alone and silent, or it is a step of the queue. -/
theorem Step.queue_cases
    (step : Step config state event emitted next) :
    (next.core.shared.queue = state.core.shared.queue ∧
        trace emitted = []) ∨
      ∃ inner,
        Queue.Step state.core.shared inner (trace emitted)
          next.core.shared := by
  rcases step.core_cases with ⟨same, silent⟩ | ⟨called, taken⟩
  · exact Or.inl ⟨by rw [same], silent⟩
  · have moved := DrainLoop.Step.of_step? taken
    by_cases other : called = .worker
    · subst other
      exact Or.inl moved.clients_of_worker.2
    · obtain ⟨inner, isInner⟩ := DrainLoop.Event.exists_shared? other
      exact Or.inr
        ⟨inner, DrainLoop.State.queueStep_of_shared? isInner taken⟩

/-- A step of the core that is not a push call starts no push. -/
private theorem push_of_core
    {core : DrainLoop.State Thread LogEntry}
    {called : DrainLoop.Event Thread LogEntry}
    {seen : List (Queue.Obs (DrainLoop.Party Thread) LogEntry)}
    (taken : state.core.step? called = some (core, seen))
    {thread : Thread}
    {item : Item Thread}
    {policy : OverflowPolicy}
    (phase : core.shared.phase (.client thread) = .push item policy) :
    state.core.shared.phase (.client thread) = .push item policy ∨
      ∃ value, called = .push thread value policy := by
  by_cases other : called = .worker
  · subst other
    have same := (DrainLoop.Step.of_step? taken).clients_of_worker.1
    rw [same] at phase
    exact Or.inl phase
  · obtain ⟨inner, isInner⟩ := DrainLoop.Event.exists_shared? other
    have inside :=
      DrainLoop.State.queueStep_of_shared? isInner taken
    rcases inside.push_origin phase with before | ⟨value, call⟩
    · exact Or.inl before
    · cases called <;> cases isInner <;> cases call
      exact Or.inr ⟨value, rfl⟩

/-- Every push uses the overflow policy of the logger. -/
def Uniform (config : LoggerConfig) (state : State Thread) : Prop :=
  ∀ thread item policy,
    state.core.shared.phase (.client thread) = .push item policy →
    policy = config.policy.overflowPolicy

/-- Every step keeps the policy uniform. -/
theorem Uniform.step
    (uniform : Uniform config state)
    (step : Step config state event emitted next) :
    Uniform config next := by
  intro thread item policy phase
  cases step with
  | client mover emitted next step =>
      cases step with
      | count entry core seen counting taken =>
          rcases push_of_core taken phase with before | ⟨value, call⟩
          · exact uniform thread item policy before
          · cases call
            rfl
      | pushed lost undelivered core seen counting returning taken =>
          rcases push_of_core taken phase with before | ⟨value, call⟩
          · exact uniform thread item policy before
          · cases call
      | stop core seen stopping taken =>
          rcases push_of_core taken phase with before | ⟨value, call⟩
          · exact uniform thread item policy before
          · cases call
      | stopped core seen stopping returning taken =>
          rcases push_of_core taken phase with before | ⟨value, call⟩
          · exact uniform thread item policy before
          · cases call
      | _ =>
          exact uniform thread item policy phase
  | worker event emitted next isWorker step =>
      rcases step.core_cases with ⟨same, _⟩ | taken
      · rw [same] at phase
        exact uniform thread item policy phase
      · rcases push_of_core taken phase with before | ⟨value, call⟩
        · exact uniform thread item policy before
        · cases call
  | inner event called core seen isCore taken =>
      rcases push_of_core taken phase with before | ⟨value, rfl⟩
      · exact uniform thread item policy before
      · cases event <;> cases isCore
  | _ =>
      exact uniform thread item policy phase

/-- Only the destructor stops the queue. -/
def StoppedByDestroyer (state : State Thread) : Prop :=
  state.core.shared.queue.stopped = true →
  ∃ thread, state.destroyer = some thread

/-- No step takes the destructor back. -/
theorem Step.destroyer_mono
    (step : Step config state event emitted next)
    {thread : Thread}
    (destroyer : state.destroyer = some thread) :
    next.destroyer = some thread := by
  cases step with
  | destroy other idle alive =>
      rw [alive] at destroyer
      cases destroyer
  | client mover emitted next step =>
      rw [step.destroyer_eq, destroyer]
  | worker event emitted next isWorker step =>
      rw [step.clients_eq.2, destroyer]
  | _ =>
      exact destroyer

/-- Every step leaves stopping to the destructor. -/
theorem StoppedByDestroyer.step
    (byDestroyer : StoppedByDestroyer state)
    (linked : Linked state)
    (coreLinked : DrainLoop.Linked state.core)
    (step : Step config state event emitted next) :
    StoppedByDestroyer next := by
  intro stopped
  have before :
      state.core.shared.queue.stopped = true ∨
        ∃ party, state.core.shared.phase party = .stop := by
    rcases step.queue_cases with ⟨same, _⟩ | ⟨inner, inside⟩
    · rw [same] at stopped
      exact Or.inl stopped
    · exact inside.stopped_cause stopped
  have destroyed : ∃ thread, state.destroyer = some thread := by
    rcases before with already | ⟨party, stopping⟩
    · exact byDestroyer already
    · obtain ⟨thread, rfl⟩ :=
        coreLinked.exists_client (Or.inr (by rw [stopping]; rfl))
      have member := linked.clients thread
      rw [stopping] at member
      refine ⟨thread, linked.destroyer thread ?_⟩
      cases phase : state.phase thread <;>
        simp [phase, Queue.Phase.member?, Phase.member?] at member
      trivial
  obtain ⟨thread, isDestroyer⟩ := destroyed
  exact ⟨thread, step.destroyer_mono isDestroyer⟩

/-- Losses tell the overflow policy, unless the queue was stopped. -/
structure LossesExplained
    (config : LoggerConfig)
    (observed : List (Obs Thread))
    (state : State Thread) : Prop where
  refused :
    Queue.refused (trace observed) ≠ [] →
    config.policy.overflowPolicy = .dropNewest ∨
      state.core.shared.queue.stopped = true
  evicted :
    Queue.evicted (trace observed) ≠ [] →
    config.policy.overflowPolicy = .dropOldest

/-- Every step of the logger keeps a stopped queue stopped. -/
theorem Step.stopped_mono
    (step : Step config state event emitted next)
    (stopped : state.core.shared.queue.stopped = true) :
    next.core.shared.queue.stopped = true := by
  rcases step.queue_cases with ⟨same, _⟩ | ⟨inner, inside⟩
  · rw [same]
    exact stopped
  · exact inside.stopped_mono stopped

omit [DecidableEq Thread] in
/-- Whoever is inside `push` uses the policy of the logger. -/
theorem Uniform.eq_policy
    (uniform : Uniform config state)
    (coreLinked : DrainLoop.Linked state.core)
    {party : DrainLoop.Party Thread}
    {item : Item Thread}
    {policy : OverflowPolicy}
    (phase : state.core.shared.phase party = .push item policy) :
    policy = config.policy.overflowPolicy := by
  obtain ⟨thread, rfl⟩ :=
    coreLinked.exists_client (Or.inl (by rw [phase]; rfl))
  exact uniform thread item policy phase

/-- Every step explains the losses it causes. -/
theorem LossesExplained.step
    {observed : List (Obs Thread)}
    (explained : LossesExplained config observed state)
    (uniform : Uniform config state)
    (coreLinked : DrainLoop.Linked state.core)
    (step : Step config state event emitted next) :
    LossesExplained config (observed ++ emitted) next where
  refused := by
    intro loses
    rw [trace_append, Queue.refused_append, ne_eq,
      List.append_eq_nil_iff, not_and_or] at loses
    rcases loses with before | now
    · exact (explained.refused before).imp_right step.stopped_mono
    · rcases step.queue_cases with ⟨_, silent⟩ | ⟨inner, inside⟩
      · rw [silent] at now
        exact (now rfl).elim
      · obtain ⟨party, _, ⟨item, phase⟩ | stopped⟩ :=
          inside.refused_cause now
        · exact Or.inl (uniform.eq_policy coreLinked phase).symm
        · exact Or.inr (step.stopped_mono stopped)
  evicted := by
    intro loses
    rw [trace_append, Queue.evicted_append, ne_eq,
      List.append_eq_nil_iff, not_and_or] at loses
    rcases loses with before | now
    · exact explained.evicted before
    · rcases step.queue_cases with ⟨_, silent⟩ | ⟨inner, inside⟩
      · rw [silent] at now
        exact (now rfl).elim
      · obtain ⟨party, item, phase⟩ := inside.evicted_cause now
        exact (uniform.eq_policy coreLinked phase).symm

/-- The entry of a call whose `push` has returned. -/
def Phase.pushed? : Phase Thread → Option (Item Thread)
  | .logSettling item _ | .logNotifying item => some item
  | .logReturning logged => logged
  | _ => none

/-- A call that returns an entry has had it decided. -/
structure Logged
    (observed : List (Obs Thread))
    (state : State Thread) : Prop where
  pending :
    ∀ thread item,
      (state.phase thread).pushed? = some item →
      item ∈ Queue.decidedItems (trace observed)
  returned :
    ∀ thread item,
      .logReturned thread (some item) ∈ observed →
      item ∈ Queue.decidedItems (trace observed)

namespace Logged

variable {observed : List (Obs Thread)}

/-- One client moves, and what it carries has been decided. -/
private theorem move
    (logged : Logged observed state)
    {thread : Thread}
    {phase : Phase Thread}
    (moved : next.phase = Function.update state.phase thread phase)
    (carried :
      ∀ item,
        phase.pushed? = some item →
        item ∈ Queue.decidedItems (trace observed))
    (returned :
      ∀ other item,
        .logReturned other (some item) ∈ emitted →
        item ∈ Queue.decidedItems (trace observed)) :
    Logged (observed ++ emitted) next where
  pending := by
    rw [moved, trace_append, Queue.decidedItems_append]
    refine forall_update
      (fun _ (phase : Phase Thread) =>
        ∀ item,
          phase.pushed? = some item →
          item ∈ Queue.decidedItems (trace observed) ++
            Queue.decidedItems (trace emitted)) ?_ ?_
    · intro other _ item isPushed
      exact List.mem_append_left _
        (logged.pending other item isPushed)
    · intro item isPushed
      exact List.mem_append_left _ (carried item isPushed)
  returned := by
    intro other item isReturned
    rw [trace_append, Queue.decidedItems_append]
    apply List.mem_append_left _
    rcases List.mem_append.mp isReturned with before | now
    · exact logged.returned other item before
    · exact returned other item now

omit [DecidableEq Thread] in
/-- No client moves, and nothing is returned. -/
private theorem keep
    (logged : Logged observed state)
    (phase : next.phase = state.phase)
    (returned :
      ∀ other item,
        .logReturned other (some item) ∉ emitted) :
    Logged (observed ++ emitted) next where
  pending := by
    intro thread item isPushed
    rw [phase] at isPushed
    rw [trace_append, Queue.decidedItems_append]
    exact List.mem_append_left _
      (logged.pending thread item isPushed)
  returned := by
    intro other item isReturned
    rw [trace_append, Queue.decidedItems_append]
    rcases List.mem_append.mp isReturned with before | now
    · exact List.mem_append_left _
        (logged.returned other item before)
    · exact (returned other item now).elim

/-- Every step returns decided entries only. -/
theorem step
    (logged : Logged observed state)
    (reported : Queue.Reported (trace observed) state.core.shared)
    (step : Step config state event emitted next) :
    Logged (observed ++ emitted) next := by
  cases step with
  | log thread level message withThreadDump environment phase idle
      admitted =>
      refine logged.move rfl ?_ (by simp)
      rcases admitted with ⟨_, rfl⟩ | ⟨entry, _, rfl⟩ <;>
        simp [Phase.pushed?]
  | flush thread | destroy thread =>
      exact logged.move rfl (by simp [Phase.pushed?]) (by simp)
  | client thread emitted next step =>
      cases step with
      | pushed item undelivered core seen phase returning taken =>
          have isDecided :
              item ∈ Queue.decidedItems (trace observed) := by
            have result :=
              reported.pending (.client thread) (item, undelivered)
                (by simp [returning, Queue.Phase.result?])
            exact List.mem_map.mpr ⟨_, result, rfl⟩
          refine logged.move rfl ?_ (by simp)
          intro carried isPushed
          split at isPushed <;> cases isPushed <;> exact isDecided
      | settle item undelivered phase =>
          have isDecided :=
            logged.pending thread item (by simp [phase, Phase.pushed?])
          refine logged.move rfl ?_ (by simp)
          intro carried isPushed
          split at isPushed <;> cases isPushed <;> exact isDecided
      | notify item phase =>
          have isDecided :=
            logged.pending thread item (by simp [phase, Phase.pushed?])
          refine logged.move rfl ?_ (by simp)
          intro carried isPushed
          cases isPushed
          exact isDecided
      | logReturn returned phase =>
          refine logged.move rfl (by simp [Phase.pushed?]) ?_
          intro other item isReturned
          simp only [List.mem_singleton, Obs.logReturned.injEq] at isReturned
          obtain ⟨_, rfl⟩ := isReturned
          exact logged.pending thread item
            (by simp [phase, Phase.pushed?])
      | _ =>
          exact logged.move rfl (by simp [Phase.pushed?]) (by simp)
  | worker event emitted next isWorker step =>
      apply logged.keep step.clients_eq.1
      intro other item
      cases step <;> simp [State.settling]
  | inner | wake =>
      exact logged.keep rfl (by simp)

end Logged

end Steps

section Reached

variable
  [DecidableEq Thread]
  {config : LoggerConfig}
  {allowed : State Thread → Event Thread → Prop}
  {observed : List (Obs Thread)}
  {state : State Thread}
  (reached :
    (machine Thread config).ReachesBy allowed observed state)

include reached

/-- In every reachable state the policy is uniform. -/
theorem Uniform.of_reaches : Uniform config state :=
  reached.invariant
    (fun _ state => Uniform config state)
    (by
      intro thread item policy phase
      cases phase)
    (fun _ uniform _ taken => uniform.step (Step.of_step? taken))

/-- In every reachable state only the destructor has stopped the queue. -/
theorem StoppedByDestroyer.of_reaches : StoppedByDestroyer state :=
  reached.invariant
    (fun _ state => StoppedByDestroyer state)
    (by
      intro stopped
      cases stopped)
    (fun before byDestroyer _ taken =>
      byDestroyer.step (Linked.of_reaches before)
        (DrainLoop.Linked.of_reaches (reaches_core before))
        (Step.of_step? taken))

/-- In every reachable state the losses are explained. -/
theorem LossesExplained.of_reaches :
    LossesExplained config observed state :=
  reached.invariant (LossesExplained config)
    {
      refused := fun loses => (loses rfl).elim
      evicted := fun loses => (loses rfl).elim
    }
    (fun before explained _ taken =>
      explained.step (Uniform.of_reaches before)
        (DrainLoop.Linked.of_reaches (reaches_core before))
        (Step.of_step? taken))

/-- In every reachable state the returned entries are decided. -/
theorem Logged.of_reaches : Logged observed state :=
  reached.invariant Logged
    {
      pending := by
        intro thread item isPushed
        cases isPushed
      returned := by simp
    }
    (fun before logged _ taken =>
      logged.step (Queue.Reported.of_reaches (reaches_queue before))
        (Step.of_step? taken))

end Reached

end ConcLogger.Async
