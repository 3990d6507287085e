import ConcLogger.Async.Shutdown
import ConcLogger.Programs

namespace ConcLogger.Async

open Concurrency

/-!
# The order in which calls take effect

With `OverflowPolicy::BLOCK` every `log()` call of an orderly run takes effect
in the critical section that inserts its entry, and a filtered call takes
effect at once.  `Linearized` keeps the schedule of the effects so far; at most
the last call of each thread is still to come.
-/

variable {Thread : Type}

/-- The `log()` call of an observation. -/
@[simp] def Obs.called? : Obs Thread → Option (Thread × Request)
  | .logCalled thread level message =>
      some (thread, { level := level, message := message })
  | _ => none

/-- The `log()` calls of a run, in order. -/
def calls (observed : List (Obs Thread)) : List (Thread × Request) :=
  observed.filterMap Obs.called?

section Projections

variable (first second : List (Obs Thread))

@[simp] theorem calls_nil : calls ([] : List (Obs Thread)) = [] :=
  rfl

@[simp] theorem calls_append :
    calls (first ++ second) = calls first ++ calls second :=
  List.filterMap_append

@[simp] theorem calls_cons
    (seen : Obs Thread)
    (rest : List (Obs Thread)) :
    calls (seen :: rest) = seen.called?.toList ++ calls rest :=
  filterMap_cons_eq_append Obs.called? seen rest

@[simp] theorem calls_map_queue
    (seen : List (Queue.Obs (DrainLoop.Party Thread) LogEntry)) :
    calls (seen.map .queue) = [] :=
  filterMap_map_queue Obs.called? (fun _ => rfl) seen

@[simp] theorem calls_settling
    (state : State Thread) :
    calls state.settling = [] :=
  filterMap_settling Obs.called? (fun _ => rfl) state

end Projections

/-- The entry of a call that has not been counted yet. -/
def Phase.counting? : Phase Thread → Option LogEntry
  | .logCounting entry => some entry
  | _ => none

/-- The entry of a call that has not taken effect yet. -/
def State.undecided?
    (state : State Thread)
    (thread : Thread) :
    Option LogEntry :=
  (state.phase thread).counting?.or
    ((state.core.shared.phase (.client thread)).undecided?.map
      Queue.Item.value)

/-- The inserted entries with the threads that logged them. -/
def insertions
    (observed : List (Obs Thread)) :
    List (DrainLoop.Party Thread × LogEntry) :=
  (Queue.inserted (trace observed)).map fun item =>
    (item.producer, item.value)

/-- One call at most is ahead of what has taken effect. -/
def Ahead
    (config : LoggerConfig)
    (called effective : List Request) : Option LogEntry → Prop
  | none => called = effective
  | some entry =>
      ∃ call,
        config.callEntry? call = some entry ∧
          called = effective ++ [call.toRequest]

variable [DecidableEq Thread]

/-- The effects so far are those of a schedule of the calls. -/
def Linearized
    (config : LoggerConfig)
    (observed : List (Obs Thread))
    (state : State Thread) : Prop :=
  ∃ schedule : List (Thread × Call),
    insertions observed =
        (config.admitted schedule).map
          (Prod.map DrainLoop.Party.client id) ∧
      ∀ thread,
        Ahead config (lane thread (calls observed))
          (lane thread (requests schedule)) (state.undecided? thread)

section Steps

variable
  {config : LoggerConfig}
  {observed emitted : List (Obs Thread)}
  {state next : State Thread}
  {event : Event Thread}

namespace Linearized

/-- Nothing takes effect and no call begins. -/
private theorem quiet
    (linearized : Linearized config observed state)
    (nothing : Queue.inserted (trace emitted) = [])
    (noCalls : calls emitted = [])
    (same :
      ∀ thread, next.undecided? thread = state.undecided? thread) :
    Linearized config (observed ++ emitted) next := by
  obtain ⟨schedule, inOrder, lanes⟩ := linearized
  refine ⟨schedule, ?_, ?_⟩
  · simpa [insertions, nothing] using inOrder
  · intro thread
    rw [calls_append, noCalls, List.append_nil, same thread]
    exact lanes thread

/-- One call takes effect by inserting its entry. -/
private theorem insert
    (linearized : Linearized config observed state)
    {thread : Thread}
    {item : Item Thread}
    (recorded : Queue.inserted (trace emitted) = [item])
    (producer : item.producer = .client thread)
    (noCalls : calls emitted = [])
    (before : state.undecided? thread = some item.value)
    (after : next.undecided? thread = none)
    (others :
      ∀ other,
        other ≠ thread →
        next.undecided? other = state.undecided? other) :
    Linearized config (observed ++ emitted) next := by
  obtain ⟨schedule, inOrder, lanes⟩ := linearized
  have mine := lanes thread
  rw [before] at mine
  obtain ⟨call, made, called⟩ := mine
  refine ⟨schedule ++ [(thread, call)], ?_, ?_⟩
  · rw [LoggerConfig.admitted_append,
      config.admitted_singleton_of_some made, List.map_append,
      ← inOrder]
    simp [insertions, recorded, producer]
  · intro other
    rw [calls_append, noCalls, List.append_nil, requests_append,
      lane_append]
    by_cases same : other = thread
    · subst same
      rw [after]
      simpa [Ahead, requests] using called
    · rw [others other same]
      simpa [requests, Ne.symm same] using lanes other

/-- A call that is not filtered begins. -/
private theorem begin_admitted
    (linearized : Linearized config observed state)
    {thread : Thread}
    {call : Call}
    {entry : LogEntry}
    (made : config.callEntry? call = some entry)
    (before : state.undecided? thread = none)
    (after : next.undecided? thread = some entry)
    (others :
      ∀ other,
        other ≠ thread →
        next.undecided? other = state.undecided? other) :
    Linearized config
      (observed ++ [.logCalled thread call.level call.message]) next := by
  obtain ⟨schedule, inOrder, lanes⟩ := linearized
  refine ⟨schedule, ?_, ?_⟩
  · simpa [insertions, Queue.inserted] using inOrder
  · intro other
    rw [calls_append, lane_append]
    by_cases same : other = thread
    · subst same
      have mine := lanes other
      rw [before] at mine
      rw [after]
      exact ⟨call, made, by simpa [Ahead] using mine⟩
    · rw [others other same]
      simpa [Ne.symm same] using lanes other

/-- A filtered call begins and takes effect at once. -/
private theorem begin_filtered
    (linearized : Linearized config observed state)
    {thread : Thread}
    {call : Call}
    (filtered : config.callEntry? call = none)
    (before : state.undecided? thread = none)
    (same :
      ∀ other, next.undecided? other = state.undecided? other) :
    Linearized config
      (observed ++ [.logCalled thread call.level call.message]) next := by
  obtain ⟨schedule, inOrder, lanes⟩ := linearized
  refine ⟨schedule ++ [(thread, call)], ?_, ?_⟩
  · rw [LoggerConfig.admitted_append,
      config.admitted_singleton_of_none filtered, List.append_nil]
    simpa [insertions, Queue.inserted] using inOrder
  · intro other
    rw [calls_append, lane_append, requests_append, lane_append,
      same other]
    by_cases isCaller : other = thread
    · subst isCaller
      have mine := lanes other
      rw [before] at mine ⊢
      simpa [Ahead, requests] using mine
    · simpa [requests, Ne.symm isCaller] using lanes other

end Linearized

omit [DecidableEq Thread] in
/-- What is undecided depends on the phases of the client. -/
theorem undecided?_congr
    {thread : Thread}
    (counting :
      (next.phase thread).counting? = (state.phase thread).counting?)
    (inQueue :
      (next.core.shared.phase (.client thread)).undecided? =
        (state.core.shared.phase (.client thread)).undecided?) :
    next.undecided? thread = state.undecided? thread := by
  simp only [State.undecided?, counting, inQueue]

omit [DecidableEq Thread] in
/-- A client outside `push` has nothing undecided in the queue. -/
theorem undecided?_eq_counting?
    (linked : Linked state)
    {thread : Thread}
    (outside : (state.phase thread).member? ≠ some .push) :
    state.undecided? thread = (state.phase thread).counting? := by
  have nothing :
      (state.core.shared.phase (.client thread)).undecided? = none := by
    refine Queue.Phase.undecided?_eq_none ?_
    rw [linked.clients thread]
    exact outside
  simp [State.undecided?, nothing]

/-- Moving one client keeps what every client is counting. -/
theorem counting?_moveTo
    {thread : Thread}
    {phase : Phase Thread}
    (same : phase.counting? = (state.phase thread).counting?) :
    ∀ other,
      (Function.update state.phase thread phase other).counting? =
        (state.phase other).counting? :=
  forall_update
    (fun other (phase : Phase Thread) =>
      phase.counting? = (state.phase other).counting?)
    (fun _ _ => rfl) same

namespace Linearized

/-- Clients move outside the queue. -/
private theorem move
    (linearized : Linearized config observed state)
    (core : next.core = state.core)
    (silent : trace emitted = [])
    (noCalls : calls emitted = [])
    (counting :
      ∀ thread,
        (next.phase thread).counting? =
          (state.phase thread).counting?) :
    Linearized config (observed ++ emitted) next :=
  linearized.quiet (by rw [silent]; rfl) noCalls
    (fun thread => undecided?_congr (counting thread) (by rw [core]))

/-- A step of the queue inserts one undecided entry at most. -/
private theorem queue
    (linearized : Linearized config observed state)
    (linked : Linked state)
    (coreLinked : DrainLoop.Linked state.core)
    (stamped : Queue.Stamped (trace observed) state.core.shared)
    (positive : 0 < state.core.shared.queue.capacity)
    (accepts : Queue.refused (trace emitted) = [])
    {inner : Queue.Event (DrainLoop.Party Thread) LogEntry}
    (inside :
      Queue.Step state.core.shared inner (trace emitted)
        next.core.shared)
    (noPush :
      ∀ party value policy,
        inner ≠ .call party (.push value policy))
    (noCalls : calls emitted = [])
    (counting :
      ∀ thread,
        (next.phase thread).counting? =
          (state.phase thread).counting?) :
    Linearized config (observed ++ emitted) next := by
  rcases inside.undecided_cases positive noPush with
    ⟨nothing, same⟩ | ⟨party, item, recorded, before, after, others⟩
  · exact linearized.quiet nothing noCalls fun thread =>
      undecided?_congr (counting thread) (same (.client thread))
  · rw [accepts] at recorded
    have pushing :
        (state.core.shared.phase party).member? = some .push := by
      by_contra outside
      rw [Queue.Phase.undecided?_eq_none outside] at before
      cases before
    obtain ⟨thread, rfl⟩ := coreLinked.exists_client (Or.inl pushing)
    have counted : (state.phase thread).counting? = none := by
      have member := linked.clients thread
      rw [pushing] at member
      cases phase : state.phase thread <;>
        simp [phase, Phase.member?, Phase.counting?] at member ⊢
    refine linearized.insert (recorded.resolve_right (by simp))
      (stamped.undecided (.client thread) item before).1 noCalls ?_ ?_ ?_
    · simp [State.undecided?, counted, before]
    · simp [State.undecided?, counting thread, counted, after]
    · intro other different
      exact undecided?_congr (counting other)
        (others (.client other) (by simpa using different))

/-- Every step of a client keeps the schedule of the effects. -/
private theorem clientStep
    {thread : Thread}
    (linearized : Linearized config observed state)
    (linked : Linked state)
    (coreLinked : DrainLoop.Linked state.core)
    (stamped : Queue.Stamped (trace observed) state.core.shared)
    (positive : 0 < state.core.shared.queue.capacity)
    (accepts : Queue.refused (trace emitted) = [])
    (step : ClientStep config state thread emitted next) :
    Linearized config (observed ++ emitted) next := by
  cases step with
  | count entry core seen phase taken =>
      have inside :=
        DrainLoop.State.queueStep_of_shared? rfl taken
      obtain ⟨rfl, before, after⟩ := inside.undecided_of_push
      refine linearized.quiet rfl rfl ?_
      intro other
      by_cases same : other = thread
      · subst same
        simp [State.undecided?, phase, before, after, Phase.counting?]
      · refine undecided?_congr ?_ ?_
        · simp [Function.update_of_ne same]
        · have apart :
              DrainLoop.Party.client other ≠ .client thread := by
            simpa using same
          simp only
          rw [inside.phase_other apart]
  | pushed item undelivered core seen phase returning taken =>
      have inside :=
        DrainLoop.State.queueStep_of_shared? rfl taken
      refine linearized.queue linked coreLinked stamped positive
        accepts (by simpa using inside) (by simp) (by simp) ?_
      refine counting?_moveTo ?_
      split <;> simp [phase, Phase.counting?]
  | stop core seen phase taken
  | stopped core seen phase returning taken =>
      have inside :=
        DrainLoop.State.queueStep_of_shared? rfl taken
      exact linearized.queue linked coreLinked stamped positive
        accepts (by simpa using inside) (by simp) (by simp)
        (counting?_moveTo (by simp [phase, Phase.counting?]))
  | settle item undelivered phase =>
      refine linearized.move rfl rfl rfl (counting?_moveTo ?_)
      split <;> simp [phase, Phase.counting?]
  | flushPass awaiting | flushBlock awaiting =>
      refine linearized.move rfl rfl rfl (counting?_moveTo ?_)
      rcases awaiting with phase | ⟨phase, _⟩ <;>
        simp [phase, Phase.counting?]
  | notify item phase | logReturn logged phase
  | flushSleep phase | flushSink position phase
  | flushReturn position phase | join broke phase
  | destroySink position phase | destroyReturn position phase =>
      exact linearized.move rfl rfl rfl
        (counting?_moveTo (by simp [phase, Phase.counting?]))

/-- Every step keeps the schedule of the effects. -/
theorem step
    (linearized : Linearized config observed state)
    (linked : Linked state)
    (coreLinked : DrainLoop.Linked state.core)
    (stamped : Queue.Stamped (trace observed) state.core.shared)
    (positive : 0 < state.core.shared.queue.capacity)
    (accepts : Queue.refused (trace emitted) = [])
    (step : Step config state event emitted next) :
    Linearized config (observed ++ emitted) next := by
  cases step with
  | log thread level message withThreadDump environment phase idle
      admitted =>
      have outside : (state.phase thread).member? ≠ some .push := by
        simp [idle, Phase.member?]
      have before : state.undecided? thread = none := by
        rw [undecided?_eq_counting? linked outside, idle]
        rfl
      rcases admitted with ⟨filtered, rfl⟩ | ⟨entry, made, rfl⟩
      · have callFiltered :
            config.callEntry?
              ⟨⟨level, message⟩, withThreadDump, environment⟩ = none :=
          filtered
        apply linearized.begin_filtered callFiltered before
        intro other
        refine undecided?_congr ?_ rfl
        exact counting?_moveTo (by simp [idle, Phase.counting?]) other
      · have callMade :
            config.callEntry?
              ⟨⟨level, message⟩, withThreadDump, environment⟩ =
                some entry :=
          made
        refine linearized.begin_admitted callMade before ?_ ?_
        · simp [State.undecided?, Phase.counting?]
        · intro other different
          refine undecided?_congr ?_ rfl
          simp [Function.update_of_ne different]
  | flush thread idle | destroy thread idle =>
      exact linearized.move rfl rfl rfl
        (counting?_moveTo (by simp [idle, Phase.counting?]))
  | client thread emitted next step =>
      exact linearized.clientStep linked coreLinked stamped positive
        accepts step
  | worker event emitted next isWorker step =>
      have noCalls : calls emitted = [] := by
        cases step <;> simp
      have counting :
          ∀ thread,
            (next.phase thread).counting? =
              (state.phase thread).counting? :=
        fun thread => by rw [step.clients_eq.1]
      rcases step.core_cases with ⟨core, silent⟩ | taken
      · exact linearized.move core silent noCalls counting
      · obtain ⟨clients, _, silent⟩ :=
          (DrainLoop.Step.of_step? taken).clients_of_worker
        exact linearized.quiet (by rw [silent]; rfl) noCalls
          (fun thread =>
            undecided?_congr (counting thread) (by rw [clients thread]))
  | inner event called core seen isCore taken =>
      have other := Event.ne_worker_of_core? isCore
      obtain ⟨inner, isInner⟩ := DrainLoop.Event.exists_shared? other
      have inside :=
        DrainLoop.State.queueStep_of_shared? isInner taken
      refine linearized.queue linked coreLinked stamped positive
        accepts (by simpa using inside) ?_ (by simp) (fun _ => rfl)
      intro party value policy isCall
      cases event <;> cases isCore <;> cases isInner <;> cases isCall
  | wake thread asleep =>
      exact linearized.move rfl rfl rfl (fun _ => rfl)

end Linearized

/-- A blocking queue that no push outlives refuses nothing. -/
private theorem Step.refuses_nothing
    (block : config.policy.overflowPolicy = .block)
    (uniform : Uniform config state)
    (byDestroyer : StoppedByDestroyer state)
    (retired : Retired state)
    (linked : Linked state)
    (coreLinked : DrainLoop.Linked state.core)
    (step : Step config state event emitted next) :
    Queue.refused (trace emitted) = [] := by
  by_contra loses
  rcases step.queue_cases with ⟨_, silent⟩ | ⟨inner, inside⟩
  · rw [silent] at loses
    exact loses rfl
  · obtain ⟨party, pushing, ⟨item, phase⟩ | stopped⟩ :=
      inside.refused_cause loses
    · have policy := uniform.eq_policy coreLinked phase
      rw [block] at policy
      cases policy
    · obtain ⟨thread, rfl⟩ := coreLinked.exists_client (Or.inl pushing)
      obtain ⟨destroyer, isDestroyer⟩ := byDestroyer stopped
      exact no_push_of_retired retired linked
        (by simp [isDestroyer]) thread pushing

end Steps

section Reached

variable
  {config : LoggerConfig}
  {observed : List (Obs Thread)}
  {state : State Thread}
  (positive : 0 < config.policy.queueCapacity)
  (block : config.policy.overflowPolicy = .block)
  (reached :
    (machine Thread config).ReachesBy Orderly observed state)

include positive block reached

/-- The effects of an orderly run in blocking mode are those of a schedule. -/
theorem Linearized.of_reaches : Linearized config observed state := by
  refine reached.invariant (Linearized config)
    ⟨[], rfl, ?_⟩ ?_
  · intro thread
    rfl
  intro observed emitted state next event before linearized _ taken
  have step := Step.of_step? taken
  have linked := Linked.of_reaches before
  have coreLinked := DrainLoop.Linked.of_reaches (reaches_core before)
  have inQueue := reaches_queue before
  have capacity : 0 < state.core.shared.queue.capacity := by
    rw [Queue.capacity_of_reaches inQueue]
    exact positive
  exact linearized.step linked coreLinked
    (Queue.Stamped.of_reaches inQueue) capacity
    (step.refuses_nothing block (Uniform.of_reaches before)
      (StoppedByDestroyer.of_reaches before)
      (Retired.of_reaches before) linked coreLinked) step

/--
When `~Logger` has returned, some schedule of all calls of the run gives, at
every position, exactly the entries that have been written there.
-/
theorem exists_schedule_of_destroyReturned
    {thread : Thread}
    (returned : .destroyReturned thread ∈ observed) :
    ∃ schedule : List (Thread × Call),
      (∀ caller,
        lane caller (calls observed) =
          lane caller (requests schedule)) ∧
        ∀ position,
          position < config.sinkCount →
          (written position observed).map Queue.Item.value =
            (config.admitted schedule).map Prod.snd := by
  obtain ⟨⟨broke, finished⟩, began⟩ :=
    finished_of_destroyReturned reached returned
  have linked := Linked.of_reaches reached
  have retired := Retired.of_reaches reached began
  obtain ⟨schedule, inOrder, lanes⟩ :=
    Linearized.of_reaches positive block reached
  refine ⟨schedule, ?_, ?_⟩
  · intro caller
    have quiet :
        (state.phase caller).member? ≠ some .push ∧
          (state.phase caller).counting? = none := by
      rcases retired caller with idle | destroying
      · simp [idle, Phase.member?, Phase.counting?]
      · cases phase : state.phase caller <;>
          simp [phase, Phase.Destroying, Phase.member?,
            Phase.counting?] at destroying ⊢
    have settledLane := lanes caller
    rw [undecided?_eq_counting? linked quiet.1, quiet.2]
      at settledLane
    exact settledLane
  · intro position inside
    have conserved := Queue.Conserved.of_reaches (reaches_queue reached)
    have nothingEvicted : Queue.evicted (trace observed) = [] := by
      by_contra loses
      have policy :=
        (LossesExplained.of_reaches reached).evicted loses
      rw [block] at policy
      cases policy
    have contents := conserved.contents
    rw [data_eq_nil_of_finished reached finished, List.append_nil,
      nothingEvicted, survivors_nil_right] at contents
    rw [(Delivered.of_reaches reached).written_eq_of_finished linked
      finished inside, contents]
    have values := congrArg (List.map Prod.snd) inOrder
    simpa [insertions, Function.comp_def] using values

end Reached

end ConcLogger.Async
