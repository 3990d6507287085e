import ConcLogger.Async.Completion
import ConcLogger.Concurrency.Linearizable

namespace ConcLogger.Async

open Concurrency

/-!
# The logger as a linearizable log

To the threads that call `log`, the logger is a list of lines to which each
call at or above the minimum level adds one.  The call takes effect in the last
critical section of its `push`, at one moment between its invocation and its
return; `OverflowPolicy::DROP_NEWEST` may lose the line instead.  What a sink
has been given is part of this list, in its order.
-/

/-- A list of lines; a call adds its line at the end or, if it may, loses it. -/
def lineLog (loses : Prop) : Object (List Line) Line Unit where
  init := []
  Effect before line after _ :=
    after = before ++ [line] ∨ loses ∧ after = before

variable {Thread : Type}

/-! ## What the threads see -/

/-- The call, the effect or the return that an observation is. -/
def Obs.mark?
    (config : LoggerConfig) :
    Obs Thread → Option (Thread × Mark Line Unit)
  | .logCalled thread level message =>
      (config.line? { level := level, message := message }).map fun line =>
        (thread, .act (.invoke line))
  | .queue (.decided item _) =>
      match item.producer with
      | .client thread => some (thread, .commit item.value.line ())
      | .worker => none
  | .logReturned thread (some _) =>
      some (thread, .act (.respond ()))
  | _ => none

/-- Calls that are not filtered, their effects and their returns, in order. -/
def marks
    (config : LoggerConfig)
    (observed : List (Obs Thread)) :
    List (Thread × Mark Line Unit) :=
  observed.filterMap (Obs.mark? config)

@[simp] theorem marks_nil
    (config : LoggerConfig) :
    marks config ([] : List (Obs Thread)) = [] :=
  rfl

@[simp] theorem marks_append
    (config : LoggerConfig)
    (first second : List (Obs Thread)) :
    marks config (first ++ second) =
      marks config first ++ marks config second :=
  List.filterMap_append

/-- Inside the queue only decisions are marked. -/
theorem marks_map_queue
    (config : LoggerConfig)
    (seen : List (Queue.Obs (DrainLoop.Party Thread) LogEntry)) :
    marks config (seen.map .queue) =
      (Queue.decided seen).filterMap fun decision =>
        Obs.mark? config (.queue (.decided decision.1 decision.2)) := by
  induction seen with
  | nil =>
      rfl
  | cons first rest inductionHypothesis =>
      simp only [marks, Queue.decided, List.map_cons,
        filterMap_cons_eq_append, List.filterMap_append]
        at inductionHypothesis ⊢
      rw [inductionHypothesis]
      cases first <;> rfl

/-- The worker's `fetch_sub` is not marked. -/
@[simp] theorem marks_settling
    (config : LoggerConfig)
    (state : State Thread) :
    marks config state.settling = [] :=
  filterMap_settling (Obs.mark? config) (fun _ => rfl) state

/-- The client is inside a `log` call that is not filtered. -/
def Phase.logging : Phase Thread → Bool
  | .logCounting _ | .logPushing | .logSettling _ _
  | .logNotifying _ | .logReturning (some _) => true
  | _ => false

/-- Where every client is with its `log` call. -/
def State.calling
    (state : State Thread)
    (thread : Thread) :
    Concurrency.Stage Line Unit :=
  match state.undecided? thread with
  | some entry => .called entry.line
  | none => if (state.phase thread).logging then .answered () else .idle

section Steps

variable
  [DecidableEq Thread]
  {config : LoggerConfig}
  {observed emitted : List (Obs Thread)}
  {state next : State Thread}
  {event : Event Thread}
  {loses : Prop}

/-- What a step is to the threads that call `log`. -/
private def IsMove
    (loses : Prop)
    (config : LoggerConfig)
    (observed emitted : List (Obs Thread))
    (state next : State Thread) : Prop :=
  (lineLog loses).Move (insertedLines observed) state.calling
    (marks config emitted) (insertedLines (observed ++ emitted)) next.calling

omit [DecidableEq Thread] in
/-- The stage depends on what is undecided and on where the client is. -/
private theorem calling_congr
    {thread : Thread}
    (undecided : next.undecided? thread = state.undecided? thread)
    (logging :
      (next.phase thread).logging = (state.phase thread).logging) :
    next.calling thread = state.calling thread := by
  simp only [State.calling, undecided, logging]

/-- Moving one client keeps who is inside `log`. -/
private theorem logging_moveTo
    {thread : Thread}
    {phase : Phase Thread}
    (same : phase.logging = (state.phase thread).logging) :
    ∀ other,
      (Function.update state.phase thread phase other).logging =
        (state.phase other).logging :=
  forall_update
    (fun other (phase : Phase Thread) =>
      phase.logging = (state.phase other).logging)
    (fun _ _ => rfl) same

namespace IsMove

/-- Nobody calls, nothing takes effect and nobody returns. -/
private theorem silent
    (nothing : Queue.inserted (trace emitted) = [])
    (unmarked : marks config emitted = [])
    (same : ∀ thread, next.calling thread = state.calling thread) :
    IsMove loses config observed emitted state next := by
  have lines : insertedLines emitted = [] := by
    rw [insertedLines, nothing]
    rfl
  have stages : next.calling = state.calling := funext same
  rw [IsMove, insertedLines_append, lines, List.append_nil, unmarked,
    stages]
  exact .silent

/-- Clients move outside the queue, inside or outside `log`. -/
private theorem move
    (core : next.core = state.core)
    (quiet : trace emitted = [])
    (unmarked : marks config emitted = [])
    (counting :
      ∀ thread,
        (next.phase thread).counting? =
          (state.phase thread).counting?)
    (logging :
      ∀ thread,
        (next.phase thread).logging = (state.phase thread).logging) :
    IsMove loses config observed emitted state next :=
  silent (by rw [quiet]; rfl) unmarked fun thread =>
    calling_congr (undecided?_congr (counting thread) (by rw [core]))
      (logging thread)

/-- A step of the queue decides one undecided entry at most. -/
private theorem queue
    (linked : Linked state)
    (coreLinked : DrainLoop.Linked state.core)
    (stamped : Queue.Stamped (trace observed) state.core.shared)
    (positive : 0 < state.core.shared.queue.capacity)
    {seen : List (Queue.Obs (DrainLoop.Party Thread) LogEntry)}
    (refusals : Queue.refused seen ≠ [] → loses)
    {inner : Queue.Event (DrainLoop.Party Thread) LogEntry}
    (inside :
      Queue.Step state.core.shared inner seen next.core.shared)
    (noPush :
      ∀ party value policy,
        inner ≠ .call party (.push value policy))
    (counting :
      ∀ thread,
        (next.phase thread).counting? =
          (state.phase thread).counting?)
    (logging :
      ∀ thread,
        (next.phase thread).logging = (state.phase thread).logging) :
    IsMove loses config observed (seen.map .queue) state next := by
  rcases inside.decided_cases positive noPush with
    ⟨undecided, nothing, same⟩ |
    ⟨party, item, undelivered, decision, outcome, before, after, others⟩
  · refine silent (by simpa using nothing) ?_ fun thread =>
      calling_congr
        (undecided?_congr (counting thread) (same (.client thread)))
        (logging thread)
    rw [marks_map_queue, undecided]
    rfl
  · have pushing :
        (state.core.shared.phase party).member? = some .push := by
      by_contra outside
      rw [Queue.Phase.undecided?_eq_none outside] at before
      cases before
    obtain ⟨thread, rfl⟩ := coreLinked.exists_client (Or.inl pushing)
    have producer : item.producer = .client thread :=
      (stamped.undecided (.client thread) item before).1
    have isPushing : state.phase thread = .logPushing := by
      have member := linked.clients thread
      rw [pushing] at member
      cases phase : state.phase thread <;>
        simp [phase, Phase.member?] at member ⊢
    have called : state.calling thread = .called item.value.line := by
      simp [State.calling, State.undecided?, isPushing, before,
        Phase.counting?]
    have answered :
        next.calling = Function.update state.calling thread (.answered ()) := by
      funext other
      by_cases same : other = thread
      · subst same
        have counted : (next.phase other).counting? = none := by
          rw [counting other, isPushing]
          rfl
        have stillInside : (next.phase other).logging = true := by
          rw [logging other, isPushing]
          rfl
        simp [State.calling, State.undecided?, counted, after,
          stillInside]
      · rw [Function.update_of_ne same]
        exact calling_congr
          (undecided?_congr (counting other)
            (others (.client other) (by simpa using same)))
          (logging other)
    have marked :
        marks config (seen.map .queue) =
          [(thread, .commit item.value.line ())] := by
      simp [marks_map_queue, decision, Obs.mark?, producer]
    rw [IsMove, marked, answered]
    refine .commit thread item.value.line () _ called ?_
    rcases outcome with inserted | ⟨nothing, refused⟩
    · refine Or.inl ?_
      simp [insertedLines, inserted]
    · refine Or.inr ⟨refusals (by simp [refused]), ?_⟩
      simp [insertedLines, nothing]

/-- A call returns that has taken effect. -/
private theorem logReturn
    {thread : Thread}
    {item : Item Thread}
    (linked : Linked state)
    (phase : state.phase thread = .logReturning (some item)) :
    IsMove loses config observed [.logReturned thread (some item)] state
      (state.moveTo thread .idle) := by
  have decided : state.undecided? thread = none := by
    rw [undecided?_eq_counting? linked (by simp [phase, Phase.member?]),
      phase]
    rfl
  have answered : state.calling thread = .answered () := by
    simp [State.calling, decided, phase, Phase.logging]
  have idle :
      (state.moveTo thread .idle).calling =
        Function.update state.calling thread .idle := by
    funext other
    have same :
        (state.moveTo thread .idle).undecided? other =
          state.undecided? other :=
      undecided?_congr
        (counting?_moveTo (by simp [phase, Phase.counting?]) other) rfl
    by_cases isCaller : other = thread
    · subst isCaller
      simp [State.calling, same, decided, Phase.logging]
    · rw [Function.update_of_ne isCaller]
      exact calling_congr same (by simp [Function.update_of_ne isCaller])
  have lines :
      insertedLines (observed ++ [.logReturned thread (some item)]) =
        insertedLines observed := by
    simp [insertedLines, Queue.inserted]
  rw [IsMove, lines, idle]
  exact .respond thread () answered

/-- A call begins, or it is filtered and nobody notices. -/
private theorem log
    {thread : Thread}
    {level : LogLevel}
    {message : String}
    {withThreadDump : Bool}
    {environment : CallEnvironment}
    {phase : Phase Thread}
    (linked : Linked state)
    (idle : state.phase thread = .idle)
    (admitted :
      (config.entry? level message withThreadDump environment = none ∧
          phase = .logReturning none) ∨
        ∃ entry,
          config.entry? level message withThreadDump environment =
              some entry ∧
            phase = .logCounting entry) :
    IsMove loses config observed [.logCalled thread level message] state
      (state.moveTo thread phase) := by
  have shown :
      (config.entry? level message withThreadDump environment).map
          LogEntry.line =
        config.line? { level := level, message := message } :=
    config.map_line_callEntry?
      ⟨⟨level, message⟩, withThreadDump, environment⟩
  rcases admitted with ⟨filtered, rfl⟩ | ⟨entry, made, rfl⟩
  · rw [filtered] at shown
    exact move rfl rfl (by simp [marks, Obs.mark?, ← shown])
      (counting?_moveTo (by simp [idle, Phase.counting?]))
      (logging_moveTo (by simp [idle, Phase.logging]))
  · rw [made] at shown
    have outside : (state.phase thread).member? ≠ some .push := by
      simp [idle, Phase.member?]
    have before : state.calling thread = .idle := by
      simp [State.calling, undecided?_eq_counting? linked outside, idle,
        Phase.counting?, Phase.logging]
    have called :
        (state.moveTo thread (.logCounting entry)).calling =
          Function.update state.calling thread (.called entry.line) := by
      funext other
      by_cases isCaller : other = thread
      · subst isCaller
        simp [State.calling, State.undecided?, Phase.counting?]
      · rw [Function.update_of_ne isCaller]
        refine calling_congr (undecided?_congr ?_ rfl) ?_ <;>
          simp [Function.update_of_ne isCaller]
    have marked :
        marks config [(.logCalled thread level message : Obs Thread)] =
          [(thread, .act (.invoke entry.line))] := by
      simp [marks, Obs.mark?, ← shown]
    have lines :
        insertedLines (observed ++ [.logCalled thread level message]) =
          insertedLines observed := by
      simp [insertedLines, Queue.inserted]
    rw [IsMove, lines, marked, called]
    exact .invoke thread entry.line before

/-- Every step of a client is one of the log. -/
private theorem clientStep
    {thread : Thread}
    (linked : Linked state)
    (coreLinked : DrainLoop.Linked state.core)
    (stamped : Queue.Stamped (trace observed) state.core.shared)
    (positive : 0 < state.core.shared.queue.capacity)
    (refusals : Queue.refused (trace emitted) ≠ [] → loses)
    (step : ClientStep config state thread emitted next) :
    IsMove loses config observed emitted state next := by
  cases step with
  | count entry core seen phase taken =>
      have inside :=
        DrainLoop.State.queueStep_of_shared? rfl taken
      obtain ⟨rfl, before, after⟩ := inside.undecided_of_push
      refine silent rfl rfl ?_
      intro other
      by_cases same : other = thread
      · subst same
        simp [State.calling, State.undecided?, phase, before, after,
          Phase.counting?]
      · refine calling_congr (undecided?_congr ?_ ?_) ?_
        · simp [Function.update_of_ne same]
        · have apart :
              DrainLoop.Party.client other ≠ .client thread := by
            simpa using same
          simp only
          rw [inside.phase_other apart]
        · simp [Function.update_of_ne same]
  | pushed item undelivered core seen phase returning taken =>
      have inside :=
        DrainLoop.State.queueStep_of_shared? rfl taken
      refine queue linked coreLinked stamped positive
        (by simpa using refusals) inside (by simp)
        (counting?_moveTo ?_) (logging_moveTo ?_) <;>
        split <;> simp [phase, Phase.counting?, Phase.logging]
  | stop core seen phase taken
  | stopped core seen phase returning taken =>
      have inside :=
        DrainLoop.State.queueStep_of_shared? rfl taken
      exact queue linked coreLinked stamped positive
        (by simpa using refusals) inside (by simp)
        (counting?_moveTo (by simp [phase, Phase.counting?]))
        (logging_moveTo (by simp [phase, Phase.logging]))
  | settle item undelivered phase =>
      refine move rfl rfl rfl (counting?_moveTo ?_)
        (logging_moveTo ?_) <;>
        split <;> simp [phase, Phase.counting?, Phase.logging]
  | flushPass awaiting | flushBlock awaiting =>
      refine move rfl rfl rfl (counting?_moveTo ?_)
        (logging_moveTo ?_) <;>
        rcases awaiting with phase | ⟨phase, _⟩ <;>
        simp [phase, Phase.counting?, Phase.logging]
  | logReturn logged phase =>
      cases logged with
      | none =>
          exact move rfl rfl rfl
            (counting?_moveTo (by simp [phase, Phase.counting?]))
            (logging_moveTo (by simp [phase, Phase.logging]))
      | some item =>
          exact logReturn linked phase
  | notify item phase | flushSleep phase | flushSink position phase
  | flushReturn position phase | join broke phase
  | destroySink position phase | destroyReturn position phase =>
      exact move rfl rfl rfl
        (counting?_moveTo (by simp [phase, Phase.counting?]))
        (logging_moveTo (by simp [phase, Phase.logging]))

/-- Every step of the logger is one of the log. -/
private theorem step
    (linked : Linked state)
    (coreLinked : DrainLoop.Linked state.core)
    (stamped : Queue.Stamped (trace observed) state.core.shared)
    (positive : 0 < state.core.shared.queue.capacity)
    (refusals : Queue.refused (trace emitted) ≠ [] → loses)
    (step : Step config state event emitted next) :
    IsMove loses config observed emitted state next := by
  cases step with
  | log thread level message withThreadDump environment phase idle
      admitted =>
      exact log linked idle admitted
  | flush thread idle | destroy thread idle alive =>
      exact move rfl rfl rfl
        (counting?_moveTo (by simp [idle, Phase.counting?]))
        (logging_moveTo (by simp [idle, Phase.logging]))
  | client thread emitted next step =>
      exact clientStep linked coreLinked stamped positive refusals step
  | worker event emitted next isWorker step =>
      have quiet : trace emitted = [] := by
        rcases step.core_cases with ⟨_, silent⟩ | taken
        · exact silent
        · exact (DrainLoop.Step.of_step? taken).clients_of_worker.2.2
      have unmarked : marks config emitted = [] := by
        cases step with
        | write =>
            rfl
        | _ =>
            simp at quiet
            simp [quiet]
      have unmoved := step.clients_eq.1
      refine silent (by rw [quiet]; rfl) unmarked fun thread =>
        calling_congr (undecided?_congr (by rw [unmoved]) ?_)
          (by rw [unmoved])
      rcases step.core_cases with ⟨same, _⟩ | taken
      · rw [same]
      · obtain ⟨clients, _⟩ :=
          (DrainLoop.Step.of_step? taken).clients_of_worker
        rw [clients thread]
  | inner event called core seen isCore taken =>
      have other := Event.ne_worker_of_core? isCore
      obtain ⟨inner, isInner⟩ := DrainLoop.Event.exists_shared? other
      have inside :=
        DrainLoop.State.queueStep_of_shared? isInner taken
      refine queue linked coreLinked stamped positive
        (by simpa using refusals) inside ?_ (fun _ => rfl)
        (fun _ => rfl)
      intro party value policy isCall
      cases event <;> cases isCore <;> cases isInner <;> cases isCall
  | wake thread asleep =>
      exact move rfl rfl rfl (fun _ => rfl) (fun _ => rfl)

end IsMove

/-- In an orderly run only `OverflowPolicy::DROP_NEWEST` refuses an entry. -/
private theorem Step.refuses_newest
    (uniform : Uniform config state)
    (byDestroyer : StoppedByDestroyer state)
    (retired : Retired state)
    (linked : Linked state)
    (coreLinked : DrainLoop.Linked state.core)
    (step : Step config state event emitted next)
    (refuses : Queue.refused (trace emitted) ≠ []) :
    config.policy.overflowPolicy = .dropNewest := by
  rcases step.queue_cases with ⟨_, silent⟩ | ⟨inner, inside⟩
  · rw [silent] at refuses
    exact (refuses rfl).elim
  · obtain ⟨party, pushing, ⟨item, phase⟩ | stopped⟩ :=
      inside.refused_cause refuses
    · exact (uniform.eq_policy coreLinked phase).symm
    · obtain ⟨thread, rfl⟩ := coreLinked.exists_client (Or.inl pushing)
      obtain ⟨destroyer, isDestroyer⟩ := byDestroyer stopped
      exact (no_push_of_retired retired linked
        (by simp [isDestroyer]) thread pushing).elim

end Steps

/-! ## Whole runs -/

section Reached

variable
  [DecidableEq Thread]
  {config : LoggerConfig}
  {observed : List (Obs Thread)}
  {state : State Thread}
  (positive : 0 < config.policy.queueCapacity)
  (reached :
    (machine Thread config).ReachesBy Orderly observed state)

include positive reached

/-- An orderly run is one of the log. -/
theorem atomic_of_reaches :
    (lineLog (config.policy.overflowPolicy = .dropNewest)).Atomic
      (marks config observed) (insertedLines observed) state.calling := by
  refine reached.invariant
    (fun observed state =>
      (lineLog (config.policy.overflowPolicy = .dropNewest)).Atomic
        (marks config observed) (insertedLines observed) state.calling)
    .init ?_
  intro observed emitted state next event before atomic _ taken
  have step := Step.of_step? taken
  have linked := Linked.of_reaches before
  have coreLinked := DrainLoop.Linked.of_reaches (reaches_core before)
  have inQueue := reaches_queue before
  have capacity : 0 < state.core.shared.queue.capacity := by
    rw [Queue.capacity_of_reaches inQueue]
    exact positive
  rw [marks_append]
  exact .step atomic
    (IsMove.step linked coreLinked (.of_reaches inQueue) capacity
      (step.refuses_newest (.of_reaches before) (.of_reaches before)
        (.of_reaches before) linked coreLinked) step)

omit positive in
/-- A sink has been given a part of what has been inserted, in order. -/
private theorem written_of_reaches
    (position : Nat) :
    ((written position observed).map fun item =>
        item.value.line).Sublist (insertedLines observed) ∧
      (config.policy.overflowPolicy ≠ .dropOldest →
        ((written position observed).map fun item => item.value.line) <+:
          insertedLines observed) := by
  have handed :=
    (Delivered.of_reaches reached).written_prefix_handed
      (.of_reaches reached) position
  have contents :=
    (Queue.Conserved.of_reaches (reaches_queue reached)).contents
  have isPrefix :
      written position observed <+:
        survivors (Queue.inserted (trace observed))
          (Queue.evicted (trace observed)) :=
    contents ▸ handed.trans (List.prefix_append _ _)
  constructor
  · exact (isPrefix.sublist.trans (survivors_sublist _ _)).map _
  · intro keeps
    have nothingEvicted : Queue.evicted (trace observed) = [] := by
      by_contra loses
      exact keeps ((LossesExplained.of_reaches reached).evicted loses)
    rw [nothingEvicted, survivors_nil_right] at isPrefix
    exact isPrefix.map _

/--
A logger of positive capacity is a linearizable log.  In every orderly run some
order of the `log()` calls at or above the minimum level explains what the
threads see: each thread's calls come in its own order, no call comes before
one that had returned when it was made, and each adds its line to a list, which
only `OverflowPolicy::DROP_NEWEST` may fail to do.  Every sink has been given
lines of that list in its order, and a beginning of it unless the policy
evicts.
-/
theorem logger_is_a_linearizable_log :
    ∃ order,
      Linearization (lineLog (config.policy.overflowPolicy = .dropNewest))
          (visible (marks config observed)) order ∧
        (lineLog (config.policy.overflowPolicy = .dropNewest)).Runs
          (order.map Prod.snd) (insertedLines observed) ∧
        ∀ position,
          ((written position observed).map fun item =>
              item.value.line).Sublist (insertedLines observed) ∧
            (config.policy.overflowPolicy ≠ .dropOldest →
              ((written position observed).map fun item =>
                  item.value.line) <+: insertedLines observed) := by
  have atomic := atomic_of_reaches positive reached
  exact ⟨commits (marks config observed), atomic.linearization,
    atomic.runs, written_of_reaches reached⟩

end Reached

/--
The first call is overtaken by the second one, which returns before the first
has taken effect.
-/
theorem logger_is_a_linearizable_log_of_overtaken_call :
    ∃ order,
      Linearization (lineLog (OverflowPolicy.block = .dropNewest))
          [(0, .invoke ⟨.warn, "net", "early"⟩),
            (1, .invoke ⟨.warn, "net", "quick"⟩),
            ((1 : Fin 2), .respond ()), (0, .respond ())] order ∧
        (lineLog (OverflowPolicy.block = .dropNewest)).Runs
          (order.map Prod.snd)
          [⟨.warn, "net", "quick"⟩, ⟨.warn, "net", "early"⟩] := by
  obtain ⟨observed, state, reached, feature⟩ :=
    (machine (Fin 2)
        { module := "net"
          sinkCount := 1
          policy := {
            queueCapacity := 2
            overflowPolicy := .block } }).exists_reachesBy Orderly
      [.log 0 .warn "early" false ⟨0, ⟨0, 1, 1, false, 0, 0⟩⟩,
        .log 1 .warn "quick" false ⟨0, ⟨0, 1, 1, false, 0, 0⟩⟩,
        .client 1, .advance (.client 1),
        .notifyOne (.client 1) .worker, .client 1, .client 1,
        .client 0, .advance (.client 0), .client 0, .client 0]
      (fun observed _ =>
        visible
            (marks
              { module := "net"
                sinkCount := 1
                policy := {
                  queueCapacity := 2
                  overflowPolicy := .block } } observed) ==
            [(0, .invoke ⟨.warn, "net", "early"⟩),
              (1, .invoke ⟨.warn, "net", "quick"⟩),
              (1, .respond ()), (0, .respond ())] &&
          insertedLines observed ==
            [⟨.warn, "net", "quick"⟩, ⟨.warn, "net", "early"⟩])
      (by decide +kernel)
  simp only [Bool.and_eq_true, beq_iff_eq] at feature
  obtain ⟨history, lines⟩ := feature
  obtain ⟨order, explains, runs, _⟩ :=
    logger_is_a_linearizable_log (by decide) reached
  rw [history] at explains
  rw [lines] at runs
  exact ⟨order, explains, runs⟩

end ConcLogger.Async
