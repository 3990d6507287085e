import Mathlib.Data.Nat.Order.Lemmas
import Mathlib.Data.Prod.Lex
import ConcLogger.Async.Shutdown
import ConcLogger.Concurrency.Fairness
import ConcLogger.DrainLoop.Termination

namespace ConcLogger.Async

open Concurrency

/-!
# The worker ends after the stop

From the stop on the worker's own steps lower a rank that the other threads
raise by insertions only.  If insertions come to an end and every thread is
treated fairly, `drain_loop` therefore returns, and what it has dispatched by
then can be read off the record.
-/

variable {Thread : Type}

/-- The party that takes a step; calls and wakeups are nobody's. -/
def Event.party? : Event Thread → Option (DrainLoop.Party Thread)
  | .client thread => some (.client thread)
  | .worker | .write _ => some .worker
  | .advance party | .notifyOne party _ => some party
  | .log _ _ _ _ _ | .flush _ | .destroy _ | .wakeQueue _
  | .wake _ => none

/-- What is left of the worker's handling of an entry. -/
def stageLeft (config : LoggerConfig) : Stage → Nat
  | .ready => config.sinkCount + 3
  | .dispatching todo => todo.card + 2
  | .settling => 1
  | .notifying => 0

variable [DecidableEq Thread]

/-- What the worker has to do before it leaves `drain_loop`. -/
def State.workLeft
    (config : LoggerConfig)
    (state : State Thread) : Nat :=
  state.core.workLeft (config.sinkCount + 4) +
    stageLeft config state.stage

section Steps

variable
  {config : LoggerConfig}
  {state next : State Thread}
  {event : Event Thread}
  {emitted : List (Obs Thread)}

/-! ## One step -/

/-- The worker's steps outside the queue do a part of the work. -/
private theorem WorkerStep.workLeft_lt
    (linked : Linked state)
    (coreLinked : DrainLoop.Linked state.core)
    (sound : Queue.Sound state.core.shared)
    (step : WorkerStep config state emitted next) :
    next.workLeft config < state.workLeft config := by
  cases step with
  | move core seen stage nothing taken =>
      have less :=
        (DrainLoop.Step.of_step? taken).workLeft_lt_of_worker
          (config.sinkCount + 4) coreLinked sound
          (State.consumed_of_no_current nothing)
      simpa [State.workLeft, stage] using less
  | dispatch item stage =>
      simp [State.workLeft, stage, stageLeft, LoggerConfig.dispatch]
  | write position todo item stage current remains =>
      have fewer := Finset.card_erase_lt_of_mem remains
      simp only [State.workLeft, stage, stageLeft]
      omega
  | join stage =>
      simp [State.workLeft, stage, stageLeft]
  | settle core seen stage more taken =>
      obtain ⟨item, current⟩ := linked.stage (by simp [stage])
      have less :=
        (DrainLoop.Step.of_step? taken).workLeft_of_consumed
          (config.sinkCount + 4) (State.consumed_of_current? current)
      simp only [State.workLeft, stage, stageLeft]
      omega
  | settleLast stage =>
      simp [State.workLeft, stage, stageLeft]
  | notify core seen stage taken =>
      obtain ⟨item, current⟩ := linked.stage (by simp [stage])
      have less :=
        (DrainLoop.Step.of_step? taken).workLeft_of_consumed
          (config.sinkCount + 4) (State.consumed_of_current? current)
      simp only [State.workLeft, stage, stageLeft]
      omega

omit [DecidableEq Thread] in
/-- A caller of `stop` is inside the destructor. -/
private theorem Linked.destroyStopping
    (linked : Linked state)
    {thread : Thread}
    (notifying :
      state.core.shared.phase (.client thread) = .stopNotifyingEmpty) :
    state.phase thread = .destroyStopping := by
  have member := linked.clients thread
  rw [notifying] at member
  cases phase : state.phase thread with
  | destroyStopping =>
      rfl
  | _ =>
      simp [phase, Phase.member?, Queue.Phase.member?] at member

/-- A caller of `stop` that has yet to notify takes no step outside the queue. -/
private theorem ClientStep.not_helper
    (linked : Linked state)
    {thread : Thread}
    (step : ClientStep config state thread emitted next)
    {party : DrainLoop.Party Thread}
    (helps : state.core.Helps party) :
    some (.client thread) ≠ some party := by
  intro isMover
  cases isMover
  have stopping := linked.destroyStopping helps.2
  cases step with
  | stopped core seen phase returning taken =>
      rw [helps.2] at returning
      cases returning
  | flushPass awaiting | flushBlock awaiting =>
      rcases awaiting with phase | ⟨phase, _⟩ <;>
        simp [stopping] at phase
  | _ =>
      simp_all

/-- A step that inserts nothing brings the worker forward or keeps its helper. -/
private theorem Step.helps_or_less
    (linked : Linked state)
    (coreLinked : DrainLoop.Linked state.core)
    (sound : Queue.Sound state.core.shared)
    (stopped : state.core.shared.queue.stopped = true)
    (step : Step config state event emitted next)
    (quiet : Queue.inserted (trace emitted) = [])
    {party : DrainLoop.Party Thread}
    (helps : state.core.Helps party) :
    next.workLeft config < state.workLeft config ∨
      (next.workLeft config = state.workLeft config ∧
        next.core.Helps party ∧
        event.party? ≠ some party) := by
  cases step with
  | client thread emitted next step =>
      have notHelper := step.not_helper linked helps
      have stage := step.stage_eq.1
      rcases step.core_cases with
        ⟨same, _⟩ | ⟨called, owner, taken⟩
      · right
        simp only [State.workLeft, stage, same]
        exact ⟨trivial, helps, notHelper⟩
      · rcases (DrainLoop.Step.of_step? taken).helps_or_less
            (config.sinkCount + 4) coreLinked sound stopped
            (DrainLoop.Event.ne_worker_of_client owner) quiet helps with
          less | ⟨same, stillHelps, _⟩
        · left
          simpa [State.workLeft, stage] using less
        · right
          simp only [State.workLeft, stage, same]
          exact ⟨trivial, stillHelps, notHelper⟩
  | worker event emitted next isWorker step =>
      exact Or.inl (step.workLeft_lt linked coreLinked sound)
  | inner event called core seen isCore taken =>
      rw [trace_map_queue] at quiet
      have owner : called.party? = event.party? := by
        cases event <;> cases isCore <;> rfl
      rcases (DrainLoop.Step.of_step? taken).helps_or_less
          (config.sinkCount + 4) coreLinked sound stopped
          (Event.ne_worker_of_core? isCore) quiet helps with
        less | ⟨same, stillHelps, notOwner⟩
      · left
        simpa [State.workLeft] using less
      · right
        rw [owner] at notOwner
        simp only [State.workLeft, same]
        exact ⟨trivial, stillHelps, notOwner⟩
  | log | flush | destroy | wake =>
      exact Or.inr ⟨rfl, helps, by simp [Event.party?]⟩

/-- While the worker handles an entry it can take a step. -/
private theorem enabled_of_current
    {item : Item Thread}
    (current : state.current? = some item) :
    Enabled (machine Thread config) Event.party? .worker state := by
  obtain ⟨second, position, control, entry⟩ :=
    State.entries_of_current? current
  obtain ⟨more, _⟩ := List.getElem?_eq_some_iff.mp entry
  have consumes : (state.core.step? .worker).isSome = true := by
    simp [DrainLoop.State.step?, DrainLoop.Event.shared?,
      DrainLoop.State.worker?, control, more]
  cases stage : state.stage with
  | ready =>
      refine ⟨.worker, rfl, ?_⟩
      simp [machine, State.step?, State.worker?, stage, current]
  | dispatching todo =>
      rcases todo.eq_empty_or_nonempty with rfl | ⟨sink, remains⟩
      · refine ⟨.worker, rfl, ?_⟩
        simp [machine, State.step?, State.worker?, stage]
      · refine ⟨.write sink, rfl, ?_⟩
        simp [machine, State.step?, State.write?, stage, current, remains]
  | settling =>
      refine ⟨.worker, rfl, ?_⟩
      by_cases last : state.pending = 1
      · simp [machine, State.step?, State.worker?, stage, last]
      · simpa [machine, State.step?, State.worker?, stage, last,
          State.within] using consumes
  | notifying =>
      refine ⟨.worker, rfl, ?_⟩
      simpa [machine, State.step?, State.worker?, stage,
        State.within] using consumes

/-- As long as the worker has not finished, its helpers can move. -/
theorem enabled_of_helps
    (linked : Linked state)
    (coreLinked : DrainLoop.Linked state.core)
    (free : state.core.shared.mutex = none)
    (unfinished : ¬ state.Finished)
    {party : DrainLoop.Party Thread}
    (helps : state.core.Helps party) :
    Enabled (machine Thread config) Event.party? party state := by
  cases party with
  | client id =>
      refine ⟨.advance (.client id), rfl, ?_⟩
      simp [machine, State.step?, State.within, DrainLoop.State.step?,
        DrainLoop.Event.shared?, DrainLoop.State.within,
        Queue.State.step?, Queue.State.advance?, helps.2]
  | worker =>
      cases current : state.current? with
      | some item =>
          exact enabled_of_current current
      | none =>
          have ready := linked.ready_of_no_current current
          rcases DrainLoop.State.worker_can_step coreLinked free helps
              (fun broke control => unfinished ⟨broke, control⟩) with
            own | inside
          · refine ⟨.worker, rfl, ?_⟩
            simpa [machine, State.step?, State.worker?, ready, current,
              State.within] using own
          · refine ⟨.advance .worker, rfl, ?_⟩
            simpa [machine, State.step?, State.within] using inside

/-- Inside the queue an idle party has no next step. -/
private theorem not_advance_of_idle
    {shared next : Queue.State (DrainLoop.Party Thread) LogEntry}
    {event : Queue.Event (DrainLoop.Party Thread) LogEntry}
    {seen : List (Queue.Obs (DrainLoop.Party Thread) LogEntry)}
    (idle : ∀ party, shared.phase party = .idle)
    (own :
      (∃ party, event = .advance party) ∨
        ∃ party chosen, event = .notifyOne party chosen) :
    shared.step? event ≠ some (next, seen) := by
  rcases own with ⟨party, rfl⟩ | ⟨party, chosen, rfl⟩ <;>
    simp [Queue.State.step?, Queue.State.advance?,
      Queue.State.notifyOne?, idle party]

/-- When the worker has finished and no call is under way, nobody can move. -/
theorem not_enabled_at_rest
    (linked : Linked state)
    (coreLinked : DrainLoop.Linked state.core)
    (idle : ∀ thread, state.phase thread = .idle)
    (finished : state.Finished)
    (party : DrainLoop.Party Thread) :
    ¬ Enabled (machine Thread config) Event.party? party state := by
  rintro ⟨event, owner, enabled⟩
  obtain ⟨⟨next, emitted⟩, taken⟩ := Option.isSome_iff_exists.mp enabled
  obtain ⟨broke, control⟩ := finished
  have idleInside :
      ∀ party, state.core.shared.phase party = .idle := by
    intro party
    apply Queue.Phase.eq_idle_of_member?
    cases party with
    | worker =>
        rw [coreLinked.worker, control]
        rfl
    | client thread =>
        rw [linked.clients thread, idle thread]
        rfl
  have ready := stage_eq_ready_of_finished linked control
  have nothing : state.current? = none := by
    simp [State.current?, control]
  cases Step.of_step? taken with
  | log | flush | destroy | wake =>
      cases owner
  | client thread emitted next step =>
      cases step with
      | flushPass awaiting | flushBlock awaiting =>
          rcases awaiting with phase | ⟨phase, _⟩ <;>
            simp [idle thread] at phase
      | _ =>
          simp_all
  | worker event emitted next isWorker step =>
      cases step with
      | move core seen stage isNothing moved =>
          simp [DrainLoop.State.step?, DrainLoop.Event.shared?,
            DrainLoop.State.worker?, control] at moved
      | _ =>
          simp_all
  | inner event called core seen isCore moved =>
      cases event with
      | advance mover =>
          cases isCore
          exact not_advance_of_idle idleInside (Or.inl ⟨mover, rfl⟩)
            (DrainLoop.State.step?_of_shared? rfl moved).1
      | notifyOne mover chosen =>
          cases isCore
          exact not_advance_of_idle idleInside
            (Or.inr ⟨mover, chosen, rfl⟩)
            (DrainLoop.State.step?_of_shared? rfl moved).1
      | wakeQueue =>
          cases owner
      | _ =>
          cases isCore

end Steps

/-! ## All positions of an execution -/

section Executions

variable
  {config : LoggerConfig}
  (execution : Execution (machine Thread config))
  {observed : List (Obs Thread)}
  (reached : (machine Thread config).Reaches observed (execution.state 0))

include reached

/-- The core of every state of the execution is reached. -/
private theorem core_linked (position : Nat) :
    DrainLoop.Linked (execution.state position).core :=
  .of_reaches (reaches_core (execution.reaches_record reached position))

/-- The queue of every state of the execution is sound. -/
private theorem queue_sound (position : Nat) :
    Queue.Sound (execution.state position).core.shared :=
  .of_reaches (reaches_queue (execution.reaches_record reached position))

omit reached in
/-- At every position the drain loop takes a step or rests. -/
private theorem core_step (position : Nat) :
    ((execution.state (position + 1)).core =
          (execution.state position).core ∧
        trace (execution.emitted position) = []) ∨
      ∃ called,
        DrainLoop.Step (execution.state position).core called
          (trace (execution.emitted position))
          (execution.state (position + 1)).core := by
  rcases execution.step position with
    ⟨chosen, _, taken⟩ | ⟨_, same, silent⟩
  · rcases (Step.of_step? taken).core_cases with
      rests | ⟨called, inside⟩
    · exact Or.inl rests
    · exact Or.inr ⟨called, DrainLoop.Step.of_step? inside⟩
  · exact Or.inl ⟨by rw [same], by rw [silent]; rfl⟩

omit reached in
/-- The queue stays stopped. -/
private theorem stopped_always
    (stopped :
      (execution.state 0).core.shared.queue.stopped = true)
    (position : Nat) :
    (execution.state position).core.shared.queue.stopped = true := by
  induction position with
  | zero =>
      exact stopped
  | succ position inductionHypothesis =>
      rcases core_step execution position with
        ⟨same, _⟩ | ⟨called, step⟩
      · rw [same]
        exact inductionHypothesis
      · exact step.stopped_mono inductionHypothesis

/-- Nobody falls asleep on `not_empty_` at any position. -/
private theorem sleepers_subset
    (stopped :
      (execution.state 0).core.shared.queue.stopped = true)
    (position : Nat) :
    (execution.state (position + 1)).core.shared.notEmpty.waiters ⊆
      (execution.state position).core.shared.notEmpty.waiters := by
  rcases core_step execution position with
    ⟨same, _⟩ | ⟨called, step⟩
  · rw [same]
  · exact step.sleepers_of_stopped
      (queue_sound execution reached position)
      (stopped_always execution stopped position)

/-- Insertions bound the swaps. -/
private theorem batches_le (position : Nat) :
    (Queue.batches (trace (execution.record position))).length +
        (execution.state position).core.shared.swapsReady ≤
      (Queue.inserted (trace (execution.record position))).length +
        (execution.state 0).core.shared.swapsReady := by
  induction position with
  | zero =>
      exact Nat.le_refl _
  | succ position inductionHypothesis =>
      simp only [Execution.record_succ, trace_append,
        Queue.batches_append, Queue.inserted_append, List.length_append]
      rcases core_step execution position with
        ⟨same, silent⟩ | ⟨called, step⟩
      · rw [same, silent]
        exact inductionHypothesis
      · have counted :=
          step.batches_le (core_linked execution reached position)
        omega

/-- After the last check nothing more is handed out. -/
private theorem handed_after_lastCheck
    {start : Nat}
    (done : (execution.state start).core.lastCheckDone = true)
    (position : Nat)
    (later : start ≤ position) :
    (execution.state position).core.lastCheckDone = true ∧
      Queue.handed (trace (execution.record position)) =
        Queue.handed (trace (execution.record start)) := by
  induction position, later using Nat.le_induction with
  | base =>
      exact ⟨done, rfl⟩
  | succ position later inductionHypothesis =>
      obtain ⟨doneBefore, same⟩ := inductionHypothesis
      rw [Execution.record_succ, trace_append, Queue.handed_append, same]
      rcases core_step execution position with
        ⟨unchanged, silent⟩ | ⟨called, step⟩
      · rw [unchanged, silent]
        exact ⟨doneBefore, List.append_nil _⟩
      · obtain ⟨doneAfter, noSwap⟩ :=
          step.after_lastCheck (core_linked execution reached position)
            doneBefore
        exact ⟨doneAfter, by simp [Queue.handed, noSwap]⟩

/-- What the worker settles is what it had and what is handed out to it. -/
private theorem settled_since (position : Nat) :
    settled (execution.record position) ++
        (execution.state position).unsettled =
      (execution.state 0).unsettled ++
        Queue.handed (trace (execution.record position)) := by
  have before := (Delivered.of_reaches reached).handed
  have after :=
    (Delivered.of_reaches (execution.reaches_record reached position)).handed
  rw [trace_append, Queue.handed_append, before, settled_append,
    List.append_assoc, List.append_assoc] at after
  exact (List.append_cancel_left after).symm

omit reached in
/-- Insertions that may still come, then work that is left. -/
def workRank (most position : Nat) : Nat ×ₗ Nat :=
  toLex
    (most - (Queue.inserted (trace (execution.record position))).length,
      (execution.state position).workLeft config)

/-- A step towards the end: more is inserted, less is left, or a helper waits. -/
private theorem progress
    (stopped :
      (execution.state 0).core.shared.queue.stopped = true)
    {most : Nat}
    (bounded :
      ∀ position,
        (Queue.inserted (trace (execution.record position))).length ≤ most)
    {party : DrainLoop.Party Thread}
    (position : Nat)
    (helps : (execution.state position).core.Helps party) :
    workRank execution most (position + 1) <
        workRank execution most position ∨
      (workRank execution most (position + 1) =
          workRank execution most position ∧
        (execution.state (position + 1)).core.Helps party ∧
        ¬ execution.Moves Event.party? party position) := by
  have counted := bounded (position + 1)
  rw [workRank, workRank, Prod.Lex.toLex_lt_toLex]
  rw [Execution.record_succ, trace_append, Queue.inserted_append,
    List.length_append] at counted ⊢
  rcases execution.step position with
    ⟨chosen, isChosen, taken⟩ | ⟨nothing, same, silent⟩
  · by_cases quiet :
        Queue.inserted (trace (execution.emitted position)) = []
    · rcases (Step.of_step? taken).helps_or_less
          (Linked.of_reaches (execution.reaches_record reached position))
          (core_linked execution reached position)
          (queue_sound execution reached position)
          (stopped_always execution stopped position) quiet helps with
        less | ⟨sameWork, stillHelps, notOwner⟩
      · exact Or.inl (Or.inr ⟨by simp [quiet], less⟩)
      · refine Or.inr ⟨by simp [quiet, sameWork], stillHelps, ?_⟩
        simpa [Execution.Moves, isChosen] using notOwner
    · have some := List.length_pos_iff.mpr quiet
      exact Or.inl (Or.inl (by dsimp only; omega))
  · refine Or.inr ⟨by simp [same, silent, Queue.inserted], ?_, ?_⟩
    · rw [same]
      exact helps
    · simp [Execution.Moves, nothing]

/-- If insertions come to an end, the worker returns. -/
private theorem finishes
    (stopped :
      (execution.state 0).core.shared.queue.stopped = true)
    {most : Nat}
    (bounded :
      ∀ position,
        (Queue.inserted (trace (execution.record position))).length ≤ most)
    (fair : ∀ party, execution.WeaklyFair Event.party? party) :
    ∃ finish, (execution.state finish).Finished := by
  have always := stopped_always execution stopped
  obtain ⟨finish, _, finished⟩ :=
    execution.eventually Event.party?
      (fun position => (execution.state position).Finished)
      (workRank execution most)
      (fun party position => (execution.state position).core.Helps party)
      (fun position _ =>
        DrainLoop.State.exists_helps
          (core_linked execution reached position)
          (Queue.StopCovered.of_reaches
            (reaches_queue (execution.reaches_record reached position)))
          (always position))
      (fun party position unfinished helps =>
        enabled_of_helps
          (Linked.of_reaches (execution.reaches_record reached position))
          (core_linked execution reached position)
          (Queue.FreeOnceStopped.of_reaches
            (reaches_queue (execution.reaches_record reached position))
            (always position))
          unfinished helps)
      (fun party position _ helps =>
        Or.inr
          (progress execution reached stopped bounded position helps))
      fair 0
  exact ⟨finish, finished⟩

/-- The last check of a worker that has finished can be found in the execution. -/
private theorem exists_lastCheck
    (before : (execution.state 0).core.lastCheckDone = false)
    {finish : Nat}
    (done : (execution.state finish).core.lastCheckDone = true) :
    ∃ check < finish,
      DrainLoop.LastCheck (execution.state check).core
          (execution.state (check + 1)).core ∧
        (execution.state (check + 1)).core.lastCheckDone = true ∧
        (execution.state (check + 1)).core.shared.queue.data = [] ∧
        trace (execution.record (check + 1)) =
          trace (execution.record check) := by
  obtain ⟨check, notYet, found⟩ :
      ∃ check,
        ¬ (execution.state check).core.lastCheckDone = true ∧
          (execution.state (check + 1)).core.lastCheckDone = true :=
    Nat.exists_not_and_succ_of_not_zero_of_exists (by simp [before])
      ⟨finish, done⟩
  rw [Bool.not_eq_true] at notYet
  refine ⟨check, ?_, ?_⟩
  · by_contra late
    have earlier :=
      (handed_after_lastCheck execution reached done check
        (Nat.le_of_not_lt late)).1
    rw [notYet] at earlier
    cases earlier
  · rcases core_step execution check with
      ⟨same, _⟩ | ⟨called, step⟩
    · rw [same, notYet] at found
      cases found
    · have supplied :=
        DrainLoop.Supplied.of_reaches
          (reaches_core (execution.reaches_record reached check))
      obtain ⟨lastCheck, nothing, silent⟩ :=
        step.lastCheck supplied notYet found
      refine ⟨lastCheck, found, nothing, ?_⟩
      rw [Execution.record_succ, trace_append, silent, List.append_nil]

/-- What the worker had at the beginning or was handed later is not evicted. -/
private theorem not_evicted_of_settled
    (position : Nat)
    {item : Item Thread}
    (member :
      item ∈ (execution.state 0).unsettled ∨
        item ∈ Queue.handed (trace (execution.record position))) :
    item ∉ Queue.evicted (trace (execution.record position)) := by
  intro gone
  have conserved :=
    Queue.Conserved.of_reaches
      (reaches_queue (execution.reaches_record reached position))
  rw [trace_append] at conserved
  have evicted :
      item ∈ Queue.evicted
        (trace observed ++ trace (execution.record position)) := by
    rw [Queue.evicted_append]
    exact List.mem_append_right _ gone
  apply (conserved.not_mem_of_evicted evicted).1
  rw [Queue.handed_append, List.mem_append]
  rcases member with had | out
  · left
    rw [(Delivered.of_reaches reached).handed]
    exact List.mem_append_right _ had
  · exact Or.inr out

/-- What has been dispatched when the worker has finished. -/
private theorem mem_settled_iff
    {check finish : Nat}
    (earlier : check < finish)
    (done : (execution.state (check + 1)).core.lastCheckDone = true)
    (nothing :
      (execution.state (check + 1)).core.shared.queue.data = [])
    (same :
      trace (execution.record (check + 1)) =
        trace (execution.record check))
    (finished : (execution.state finish).Finished)
    (item : Item Thread) :
    item ∈ settled (execution.record finish) ↔
      (item ∈ (execution.state 0).unsettled ∨
          item ∈ (execution.state 0).core.shared.queue.data ∨
          item ∈ Queue.inserted (trace (execution.record check))) ∧
        item ∉ Queue.evicted (trace (execution.record finish)) := by
  obtain ⟨broke, control⟩ := finished
  have settledAll := settled_since execution reached finish
  rw [unsettled_eq_nil_of_finished
      (Linked.of_reaches (execution.reaches_record reached finish)) control,
    List.append_nil] at settledAll
  have handedAll :=
    (handed_after_lastCheck execution reached done finish earlier).2
  have atStart := reaches_queue reached
  have atCheck :=
    reaches_queue (execution.reaches_record reached (check + 1))
  rw [trace_append] at atCheck
  have sources :=
    (Queue.Conserved.of_reaches atStart).mem_handed_since
      (.of_reaches atStart) (.of_reaches atCheck) (.of_reaches atCheck)
      nothing item
  rw [← handedAll, same] at sources
  have evictedLater :
      item ∈ Queue.evicted (trace (execution.record check)) →
      item ∈ Queue.evicted (trace (execution.record finish)) := by
    obtain ⟨later, grown⟩ :=
      execution.record_prefix (Nat.le_of_lt earlier)
    rw [← grown, trace_append, Queue.evicted_append]
    exact List.mem_append_left _
  rw [settledAll, List.mem_append]
  constructor
  · intro member
    refine ⟨?_, not_evicted_of_settled execution reached finish member⟩
    rcases member with had | out
    · exact Or.inl had
    · exact Or.inr (sources.mp out).1
  · rintro ⟨had | entered, remains⟩
    · exact Or.inl had
    · exact Or.inr
        (sources.mpr ⟨entered, fun gone => remains (evictedLater gone)⟩)

/-- Nothing is settled twice. -/
private theorem settled_nodup (position : Nat) :
    (settled (execution.record position)).Nodup := by
  have later := execution.reaches_record reached position
  have inQueue := reaches_queue later
  have once :=
    (Queue.Conserved.of_reaches inQueue).handed_data_nodup
      (.of_reaches inQueue)
  rw [(Delivered.of_reaches later).handed, settled_append] at once
  exact once.of_append_left.of_append_left.of_append_right

/-- When the worker has finished, what is settled has been written everywhere. -/
private theorem written_eq_settled
    {finish : Nat}
    (finished : (execution.state finish).Finished)
    {sink : Nat}
    (inside : sink < config.sinkCount) :
    written sink (observed ++ execution.record finish) =
      settled (observed ++ execution.record finish) := by
  obtain ⟨broke, control⟩ := finished
  have later := execution.reaches_record reached finish
  have linked := Linked.of_reaches later
  rw [Delivered.written_eq_of_finished linked control
      (.of_reaches later) inside,
    (Delivered.of_reaches later).handed,
    unsettled_eq_nil_of_finished linked control, List.append_nil]

omit [DecidableEq Thread] reached in
/-- After the last check the worker has no entry in its hands. -/
private theorem handles_nothing
    {state : State Thread}
    (linked : Linked state)
    (done : state.core.lastCheckDone = true) :
    state.unsettled = [] ∧ ∀ sink, state.writtenAhead sink = [] := by
  have outside :
      ∀ second position,
        state.core.control ≠ .entries second position ∧
          state.core.control ≠ .draining second := by
    intro second position
    rcases DrainLoop.State.lastCheckDone_iff.mp done with
      ⟨broke, control⟩ | ⟨control, _⟩ <;>
      simp [control]
  have nothing : state.current? = none := by
    unfold State.current?
    split
    · rename_i second position control
      exact ((outside second position).1 control).elim
    · rfl
  have ready := linked.ready_of_no_current nothing
  have noBatch : state.core.outstanding = [] := by
    unfold DrainLoop.State.outstanding
    split
    · rename_i second control
      exact ((outside second 0).2 control).elim
    · rename_i second position control
      exact ((outside second position).1 control).elim
    · rfl
  exact ⟨by simp [State.unsettled, ready, noBatch],
    by simp [State.writtenAhead, ready]⟩

/-- After the last check nothing is settled and nothing is written. -/
private theorem nothing_after_lastCheck
    (done : (execution.state 0).core.lastCheckDone = true)
    (position : Nat) :
    settled (execution.record position) = [] ∧
      ∀ sink, written sink (execution.record position) = [] := by
  have later := execution.reaches_record reached position
  obtain ⟨doneLater, noBatch⟩ :=
    handed_after_lastCheck execution reached done position
      (Nat.zero_le position)
  obtain ⟨nothingAtStart, notAhead⟩ :=
    handles_nothing (Linked.of_reaches reached) done
  obtain ⟨nothingLater, notAheadLater⟩ :=
    handles_nothing (Linked.of_reaches later) doneLater
  have settles := settled_since execution reached position
  rw [nothingLater, nothingAtStart, noBatch, List.append_nil] at settles
  refine ⟨settles, ?_⟩
  intro sink
  by_cases inside : sink < config.sinkCount
  · have before := (Delivered.of_reaches reached).inside sink inside
    have after := (Delivered.of_reaches later).inside sink inside
    rw [written_append, settled_append, before, notAhead, notAheadLater,
      settles] at after
    exact List.append_cancel_left after
  · have nowhere :=
      (Delivered.of_reaches later).outside sink (Nat.le_of_not_lt inside)
    rw [written_append] at nowhere
    exact (List.append_eq_nil_iff.mp nowhere).2

end Executions

/-! ## The worker ends -/

/--
What `drain_loop` does from a moment on at which the queue is stopped.  The
record of the execution begins there; `observed` is what was seen before.
-/
structure WorkerEnds
    {config : LoggerConfig}
    (observed : List (Obs Thread))
    (execution : Execution (machine Thread config)) : Prop where
  /-- No `push` executes `pop_front` on an empty deque. -/
  defined :
    ∀ position, Queue.Defined (execution.state position).core.shared
  /-- `drain` does not prepare to sleep ... -/
  doesNotBlock :
    ∀ position out,
      (execution.state position).core.shared.phase .worker ≠
        .drainBlocking out
  /-- ... and a worker that is awake stays awake. -/
  staysAwake :
    ∀ position,
      .worker ∉ (execution.state position).core.shared.notEmpty.waiters →
      .worker ∉
        (execution.state (position + 1)).core.shared.notEmpty.waiters
  /-- At any time there were at most as many swaps as insertions and one. -/
  swaps :
    ∀ position,
      (Queue.batches (trace (execution.record position))).length ≤
        (Queue.inserted (trace (execution.record position))).length + 1
  /-- If only so many insertions come, `drain_loop` returns. -/
  returns :
    ∀ most,
      (∀ position,
        (Queue.inserted
          (trace (execution.record position))).length ≤ most) →
      (∀ party, execution.WeaklyFair Event.party? party) →
      ∃ finish,
        (execution.state finish).Finished ∧
          ∀ position,
            (Queue.batches
              (trace (execution.record position))).length ≤ most + 1
  /-- The stop itself comes before the last check of the deque. -/
  undone :
    ∀ earlier before event emitted,
      (machine Thread config).Reaches earlier before →
      before.core.shared.queue.stopped = false →
      before.step? config event = some (execution.state 0, emitted) →
      (execution.state 0).core.lastCheckDone = false
  /--
  With the last check ahead, the worker dispatches once what it had in its
  batch, what was in the deque and what is inserted before that check, less
  what is evicted.
  -/
  dispatched :
    (execution.state 0).core.lastCheckDone = false →
    ∀ finish,
      (execution.state finish).Finished →
      ∃ check < finish,
        DrainLoop.LastCheck (execution.state check).core
            (execution.state (check + 1)).core ∧
          (settled (execution.record finish)).Nodup ∧
          (∀ item,
            item ∈ settled (execution.record finish) ↔
              (item ∈ (execution.state 0).unsettled ∨
                  item ∈ (execution.state 0).core.shared.queue.data ∨
                  item ∈
                    Queue.inserted (trace (execution.record check))) ∧
                item ∉
                  Queue.evicted (trace (execution.record finish))) ∧
          ∀ sink < config.sinkCount,
            written sink (observed ++ execution.record finish) =
              settled (observed ++ execution.record finish)
  /-- After the last check the worker dispatches nothing. -/
  nothingMore :
    (execution.state 0).core.lastCheckDone = true →
    ∀ position,
      settled (execution.record position) = [] ∧
        ∀ sink, written sink (execution.record position) = []
  /-- The `break` of the second loop is never taken. -/
  unbroken :
    ∀ position, (execution.state position).core.control ≠ .finished true

/--
The worker ends after the stop: whatever the other threads do, it does not
fall asleep any more, and once insertions come to an end it returns from
`drain_loop` with everything dispatched that was left to it.
-/
theorem worker_ends_after_stop
    {config : LoggerConfig}
    (positive : 0 < config.policy.queueCapacity)
    {observed : List (Obs Thread)}
    (execution : Execution (machine Thread config))
    (reached : (machine Thread config).Reaches observed (execution.state 0))
    (stopped :
      (execution.state 0).core.shared.queue.stopped = true) :
    WorkerEnds observed execution where
  defined position :=
    .of_reaches positive
      (reaches_queue (execution.reaches_record reached position))
  doesNotBlock position out blocking := by
    have running :=
      ((queue_sound execution reached position .worker).drainBlocked
        out blocking).2
    rw [stopped_always execution stopped position] at running
    cases running
  staysAwake position awake asleep :=
    awake (sleepers_subset execution reached stopped position asleep)
  swaps position := by
    have counted := batches_le execution reached position
    have ready := (execution.state 0).core.shared.swapsReady_le_one
    omega
  returns most bounded fair := by
    obtain ⟨finish, finished⟩ :=
      finishes execution reached stopped bounded fair
    refine ⟨finish, finished, ?_⟩
    intro position
    have counted := batches_le execution reached position
    have ready := (execution.state 0).core.shared.swapsReady_le_one
    have atMost := bounded position
    omega
  undone := by
    intro earlier before event emitted reachedBefore running taken
    have core := reaches_core reachedBefore
    rcases (Step.of_step? taken).core_cases with
      ⟨same, _⟩ | ⟨called, inside⟩
    · rw [same, running] at stopped
      cases stopped
    · exact (DrainLoop.Step.of_step? inside).lastCheck_after_stop
        (.of_reaches core) (.of_reaches core) running
  dispatched := by
    intro before finish finished
    have done : (execution.state finish).core.lastCheckDone = true :=
      DrainLoop.State.lastCheckDone_iff.mpr (Or.inl finished)
    obtain ⟨check, earlier, lastCheck, doneAfter, nothing, same⟩ :=
      exists_lastCheck execution reached before done
    exact ⟨check, earlier, lastCheck,
      settled_nodup execution reached finish,
      mem_settled_iff execution reached earlier doneAfter nothing same
        finished,
      fun sink inside =>
        written_eq_settled execution reached finished inside⟩
  nothingMore done position :=
    nothing_after_lastCheck execution reached done position
  unbroken position :=
    (DrainLoop.Supplied.of_reaches
      (reaches_core (execution.reaches_record reached position))).unbroken

/-- One sink and room for one entry. -/
def narrow : LoggerConfig where
  module := "net"
  sinkCount := 1
  policy := { queueCapacity := 1 }

/-- A `log()` call inserts before `~Logger` has woken the worker. -/
def lateInsertion (caller destroyer : Thread) : List (Event Thread) :=
  [.log caller .error "late" false ⟨0, ⟨0, 1, 1, false, 0, 0⟩⟩,
    .client caller, .advance (.client caller),
    .advance (.client destroyer),
    .notifyOne (.client caller) .worker, .client caller, .client caller,
    .advance (.client destroyer), .client destroyer,
    .advance .worker, .advance .worker, .worker,
    .worker, .write 0, .worker, .worker, .worker, .worker,
    .worker, .advance .worker, .worker,
    .worker, .advance .worker, .worker,
    .client destroyer, .client destroyer, .client destroyer]

/--
A worker asleep at the stop and one insertion after it: the worker is woken,
swaps once, writes the entry and returns.
-/
theorem worker_ends_after_stop_of_late_insertion :
    ∃ (observed : List (Obs (Fin 2)))
      (execution : Execution (machine (Fin 2) narrow)),
      (machine (Fin 2) narrow).Reaches observed (execution.state 0) ∧
        .worker ∈ (execution.state 0).core.shared.notEmpty.waiters ∧
        WorkerEnds observed execution ∧
        (∀ position,
          (Queue.inserted
            (trace (execution.record position))).length ≤ 1) ∧
        (∀ party, execution.WeaklyFair Event.party? party) ∧
        (∃ finish, (execution.state finish).Finished) ∧
        (settled (execution.record (lateInsertion (1 : Fin 2) 0).length)).map
            (fun item => item.value.message) =
          ["late"] := by
  obtain ⟨observed, state, reached, feature⟩ :=
    (machine (Fin 2) narrow).exists_reaches
      [.worker, .advance .worker, .advance .worker,
        .destroy 0, .client 0, .advance (.client 0)]
      (fun _ state =>
        let execution :=
          replay (machine (Fin 2) narrow) ((lateInsertion 1 0)[·]?) state
        let seen := execution.record (lateInsertion (1 : Fin 2) 0).length
        let final := execution.state (lateInsertion (1 : Fin 2) 0).length
        state.core.shared.queue.stopped &&
          decide (.worker ∈ state.core.shared.notEmpty.waiters) &&
          (final.core.control == .finished false) &&
          decide (∀ thread, final.phase thread = .idle) &&
          decide ((Queue.inserted (trace seen)).length ≤ 1) &&
          ((settled seen).map fun item => item.value.message) == ["late"])
      (by decide +kernel)
  simp only [Bool.and_eq_true, decide_eq_true_eq, beq_iff_eq] at feature
  obtain ⟨⟨⟨⟨⟨stopped, asleep⟩, control⟩, idle⟩, inserted⟩, message⟩ :=
    feature
  have ended :
      ∀ position,
        (lateInsertion (1 : Fin 2) 0).length ≤ position →
        (lateInsertion (1 : Fin 2) 0)[position]? = none :=
    fun _ => List.getElem?_eq_none
  have later :=
    (replay (machine (Fin 2) narrow) ((lateInsertion 1 0)[·]?)
      state).reaches_record reached (lateInsertion (1 : Fin 2) 0).length
  have finished :
      ((replay (machine (Fin 2) narrow) ((lateInsertion 1 0)[·]?) state).state
        (lateInsertion (1 : Fin 2) 0).length).Finished :=
    ⟨false, control⟩
  have fewInsertions :
      ∀ position,
        (Queue.inserted
          (trace
            ((replay (machine (Fin 2) narrow) ((lateInsertion 1 0)[·]?)
              state).record position))).length ≤ 1 := by
    intro position
    obtain ⟨rest, grown⟩ := replay_record_prefix ended position
    rw [← grown, trace_append, Queue.inserted_append,
      List.length_append] at inserted
    exact (Nat.le_add_right _ _).trans inserted
  have fair :
      ∀ party,
        (replay (machine (Fin 2) narrow) ((lateInsertion 1 0)[·]?)
          state).WeaklyFair Event.party? party :=
    fun party =>
      replay_weaklyFair ended
        (not_enabled_at_rest (Linked.of_reaches later)
          (.of_reaches (reaches_core later)) idle finished party)
  have ends :=
    worker_ends_after_stop (by decide)
      (replay (machine (Fin 2) narrow) ((lateInsertion 1 0)[·]?) state)
      reached stopped
  obtain ⟨finish, returned, _⟩ := ends.returns 1 fewInsertions fair
  exact ⟨observed, _, reached, asleep, ends, fewInsertions, fair,
    ⟨finish, returned⟩, message⟩

end ConcLogger.Async
