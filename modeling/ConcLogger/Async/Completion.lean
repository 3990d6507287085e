import ConcLogger.Async.Rest
import ConcLogger.Async.Schedules
import ConcLogger.Async.Work

namespace ConcLogger.Async

open Concurrency

/-!
# Runs that are carried to their end

Between two calls of a program the scheduler may let everybody go on until
nobody can.  With `OverflowPolicy::BLOCK` each call then takes effect before
the next one begins, so that every schedule of calls is carried out in its
order by some run, and the logger can be destroyed afterwards.
-/

variable {Thread : Type}

/-! ## Programs do not flush -/

/-- The client is inside `flush`. -/
def Phase.Flushing : Phase Thread → Prop
  | .flushLocking | .flushBlocking | .flushWaiting
  | .flushSinks _ => True
  | _ => False

/-- No client is inside `flush`. -/
def Unflushed (state : State Thread) : Prop :=
  ∀ thread, ¬ (state.phase thread).Flushing

/-- The destructor that has begun is under way or has returned. -/
def DestroyerKnown
    (observed : List (Obs Thread))
    (state : State Thread) : Prop :=
  ∀ thread,
    state.destroyer = some thread →
    (state.phase thread).Destroying ∨
      .destroyReturned thread ∈ observed

section Steps

variable
  [DecidableEq Thread]
  {config : LoggerConfig}
  {observed emitted : List (Obs Thread)}
  {state next : State Thread}
  {event : Event Thread}
  {thread : Thread}

/-- A client that is not inside `flush` does not get there by itself. -/
private theorem ClientStep.unflushed
    (unflushed : Unflushed state)
    (step : ClientStep config state thread emitted next) :
    Unflushed next := by
  have mover := unflushed thread
  have moveTo
      {phase : Phase Thread}
      (outside : ¬ phase.Flushing) :
      ∀ other,
        ¬ (Function.update state.phase thread phase other).Flushing :=
    forall_update (fun _ (phase : Phase Thread) => ¬ phase.Flushing)
      (fun other _ => unflushed other) outside
  cases step with
  | pushed | settle =>
      refine moveTo ?_
      split <;> exact id
  | flushPass awaiting | flushBlock awaiting =>
      rcases awaiting with phase | ⟨phase, _⟩ <;>
        exact (mover (by rw [phase]; trivial)).elim
  | flushSleep phase | flushSink position phase
  | flushReturn position phase =>
      exact (mover (by rw [phase]; trivial)).elim
  | _ =>
      exact moveTo id

/-- Every step of a program leaves all clients outside `flush`. -/
theorem Unflushed.step
    (unflushed : Unflushed state)
    (scripted : Scripted state event)
    (step : Step config state event emitted next) :
    Unflushed next := by
  have moveTo
      {thread : Thread}
      {phase : Phase Thread}
      (outside : ¬ phase.Flushing) :
      ∀ other,
        ¬ (Function.update state.phase thread phase other).Flushing :=
    forall_update (fun _ (phase : Phase Thread) => ¬ phase.Flushing)
      (fun other _ => unflushed other) outside
  cases step with
  | log thread level message withThreadDump environment phase idle
      admitted =>
      rcases admitted with ⟨_, rfl⟩ | ⟨entry, _, rfl⟩ <;>
        exact moveTo id
  | flush thread idle =>
      exact scripted.elim
  | destroy thread idle alive =>
      exact moveTo id
  | client thread emitted next step =>
      exact step.unflushed unflushed
  | worker event emitted next isWorker step =>
      intro other
      rw [step.clients_eq.1]
      exact unflushed other
  | inner | wake =>
      exact unflushed

/-- In every state that programs reach all clients are outside `flush`. -/
theorem Unflushed.of_reaches
    (reached :
      (machine Thread config).ReachesBy Scripted observed state) :
    Unflushed state :=
  reached.invariant
    (fun _ state => Unflushed state)
    (fun _ => id)
    (fun _ unflushed scripted taken =>
      unflushed.step scripted (Step.of_step? taken))

/-- A destructor stays under way until it returns. -/
private theorem DestroyerKnown.clientStep
    (known : DestroyerKnown observed state)
    (step : ClientStep config state thread emitted next) :
    DestroyerKnown (observed ++ emitted) next := by
  intro other isDestroyer
  rw [step.destroyer_eq] at isDestroyer
  rcases known other isDestroyer with inside | returned
  · by_cases same : other = thread
    · subst same
      cases step with
      | destroyReturn =>
          exact Or.inr (List.mem_append_right _ (List.mem_singleton_self _))
      | stop | stopped | join | destroySink =>
          refine Or.inl ?_
          simp [Phase.Destroying]
      | flushPass awaiting | flushBlock awaiting =>
          rcases awaiting with phase | ⟨phase, _⟩ <;>
            simp [phase, Phase.Destroying] at inside
      | count entry core seen phase
      | pushed item undelivered core seen phase
      | settle item undelivered phase | notify item phase
      | logReturn logged phase | flushSleep phase
      | flushSink position phase | flushReturn position phase =>
          simp [phase, Phase.Destroying] at inside
    · refine Or.inl ?_
      have unmoved : next.phase other = state.phase other := by
        cases step <;> simp [same]
      rw [unmoved]
      exact inside
  · exact Or.inr (List.mem_append_left _ returned)

/-- Every step leaves the destructor under way or lets it return. -/
theorem DestroyerKnown.step
    (known : DestroyerKnown observed state)
    (step : Step config state event emitted next) :
    DestroyerKnown (observed ++ emitted) next := by
  have keep
      {phase : Thread → Phase Thread}
      (stays :
        ∀ other,
          (state.phase other).Destroying → (phase other).Destroying)
      (other : Thread)
      (isDestroyer : state.destroyer = some other) :
      (phase other).Destroying ∨
        .destroyReturned other ∈ observed ++ emitted :=
    (known other isDestroyer).imp (stays other)
      (List.mem_append_left emitted)
  -- A caller was idle and therefore outside the destructor.
  have called
      {thread : Thread}
      (phase : Phase Thread)
      (idle : state.phase thread = .idle)
      (other : Thread)
      (inside : (state.phase other).Destroying) :
      (Function.update state.phase thread phase other).Destroying := by
    by_cases same : other = thread
    · subst same
      rw [idle] at inside
      exact inside.elim
    · rwa [Function.update_of_ne same]
  cases step with
  | log thread level message withThreadDump environment phase idle =>
      exact keep (called phase idle)
  | flush thread idle =>
      exact keep (called .flushLocking idle)
  | destroy thread idle alive =>
      rintro other isDestroyer
      cases isDestroyer
      exact Or.inl (by simp [Phase.Destroying])
  | client thread emitted next step =>
      exact known.clientStep step
  | worker event emitted next isWorker step =>
      intro other isDestroyer
      rw [step.clients_eq.2] at isDestroyer
      rw [step.clients_eq.1]
      exact keep (fun _ => id) other isDestroyer
  | inner | wake =>
      exact keep fun _ => id

/-- In every reachable state the destructor is under way or has returned. -/
theorem DestroyerKnown.of_reaches
    {allowed : State Thread → Event Thread → Prop}
    (reached :
      (machine Thread config).ReachesBy allowed observed state) :
    DestroyerKnown observed state :=
  reached.invariant DestroyerKnown
    (fun _ isDestroyer => by cases isDestroyer)
    (fun _ known _ taken => known.step (Step.of_step? taken))

/-- What a party does by itself is not a call. -/
private theorem Step.calls_nothing
    (owned : event.party? ≠ none)
    (step : Step config state event emitted next) :
    calls emitted = [] ∧ next.destroyer = state.destroyer := by
  cases step with
  | log | flush | destroy | wake =>
      exact (owned rfl).elim
  | client thread emitted next step =>
      refine ⟨?_, step.destroyer_eq⟩
      cases step <;> simp
  | worker event emitted next isWorker step =>
      refine ⟨?_, step.clients_eq.2⟩
      cases step <;> simp
  | inner =>
      exact ⟨by simp, rfl⟩

omit [DecidableEq Thread] in
/-- Programs may do everything that is not a call. -/
private theorem scripted_of_owned
    (owned : event.party? ≠ none) :
    Scripted state event := by
  cases event with
  | log | flush | destroy =>
      exact (owned rfl).elim
  | _ =>
      trivial

end Steps

/-! ## Running to rest -/

section ToRest

variable
  [DecidableEq Thread]
  [Fintype Thread]
  {config : LoggerConfig}
  {observed : List (Obs Thread)}
  {state : State Thread}
  (positive : 0 < config.policy.queueCapacity)
  (reached :
    (machine Thread config).ReachesBy Scripted observed state)

include positive reached

/-- From every state that programs reach all calls can be completed. -/
theorem exists_completion :
    ∃ emitted final,
      (machine Thread config).ReachesBy Scripted
          (observed ++ emitted) final ∧
        calls emitted = [] ∧
        final.destroyer = state.destroyer ∧
        ∀ thread, final.phase thread = .idle := by
  obtain ⟨emitted, final, continued, ⟨called, sameDestroyer⟩, stuck⟩ :=
    reached.exists_rest Event.party? (State.work config)
      (fun record current =>
        calls record = calls observed ∧
          current.destroyer = state.destroyer)
      (by
        rintro record emitted current next event before ⟨called, same⟩
          owned taken
        have step := Step.of_step? taken
        obtain ⟨noCalls, kept⟩ := step.calls_nothing owned
        have paid :=
          step.work_lt (.of_reaches before)
            (.of_reaches (reaches_core before))
        rw [Event.price_eq_zero _ owned, Nat.add_zero] at paid
        refine ⟨scripted_of_owned owned, paid, ?_, kept.trans same⟩
        rw [calls_append, noCalls, List.append_nil, called])
      ⟨rfl, rfl⟩
  have resting : Resting final :=
    AtRest.resting stuck positive continued
  refine ⟨emitted, final, continued, ?_, sameDestroyer, ?_⟩
  · simpa using called
  · intro thread
    rcases resting.clients thread with idle | ⟨waiting, _⟩
    · exact idle
    · exact (Unflushed.of_reaches continued thread
        (by rw [waiting]; trivial)).elim

/-- One call is made and completed before anybody calls again. -/
private theorem exists_call_run
    (alive : state.destroyer = none)
    {thread : Thread}
    (idle : state.phase thread = .idle)
    (call : Call) :
    ∃ emitted final,
      (machine Thread config).ReachesBy Scripted
          (observed ++ emitted) final ∧
        calls emitted = [(thread, call.toRequest)] ∧
        final.destroyer = none ∧
        ∀ thread, final.phase thread = .idle := by
  obtain ⟨⟨next, seen⟩, taken, rfl⟩ :
      ∃ result,
        state.step? config
            (.log thread call.level call.message call.withThreadDump
              call.environment) = some result ∧
          result.2 = [.logCalled thread call.level call.message] := by
    simp [State.step?, idle]
  have kept : next.destroyer = none := by
    simp only [State.step?, idle, Option.some.injEq, Prod.mk.injEq]
      at taken
    rw [← taken.1]
    exact alive
  have made :
      (machine Thread config).ReachesBy Scripted
        (observed ++ [.logCalled thread call.level call.message]) next :=
    .step
      (.log thread call.level call.message call.withThreadDump
        call.environment) reached alive taken
  obtain ⟨later, final, continued, noCalls, sameDestroyer, allIdle⟩ :=
    exists_completion positive made
  rw [List.append_assoc] at continued
  refine ⟨_, final, continued, ?_, sameDestroyer.trans kept, allIdle⟩
  rw [calls_append, noCalls]
  rfl

/-- A logger that nobody is using is destroyed. -/
private theorem exists_destroy_run
    (alive : state.destroyer = none)
    (idle : ∀ thread, state.phase thread = .idle)
    (destroyer : Thread) :
    ∃ emitted final,
      (machine Thread config).ReachesBy Scripted
          (observed ++ emitted) final ∧
        calls emitted = [] ∧
        .destroyReturned destroyer ∈ observed ++ emitted ∧
        ∀ thread, final.phase thread = .idle := by
  have begun :
      (machine Thread config).ReachesBy Scripted
        (observed ++ [.destroyCalled destroyer])
        { state.moveTo destroyer .destroyStop with
          destroyer := some destroyer } :=
    .step (.destroy destroyer) reached idle
      (by simp [machine, State.step?, idle destroyer, alive])
  obtain ⟨later, final, continued, noCalls, sameDestroyer, allIdle⟩ :=
    exists_completion positive begun
  rw [List.append_assoc] at continued
  refine ⟨_, final, continued, ?_, ?_, allIdle⟩
  · rw [calls_append, noCalls]
    rfl
  · refine (DestroyerKnown.of_reaches continued destroyer
      sameDestroyer).resolve_left ?_
    rw [allIdle destroyer]
    exact id

end ToRest

/-! ## What has been inserted when all calls have returned -/

/-- The lines of the entries that have been inserted, in order. -/
def insertedLines (observed : List (Obs Thread)) : List Line :=
  (Queue.inserted (trace observed)).map fun item => item.value.line

@[simp] theorem insertedLines_append
    (first second : List (Obs Thread)) :
    insertedLines (first ++ second) =
      insertedLines first ++ insertedLines second := by
  simp [insertedLines]

/-- The lines that have been inserted with the threads that logged them. -/
private def tagged
    (observed : List (Obs Thread)) :
    List (DrainLoop.Party Thread × Line) :=
  (insertions observed).map (Prod.map id LogEntry.line)

private theorem tagged_append
    (first second : List (Obs Thread)) :
    tagged (first ++ second) = tagged first ++ tagged second := by
  simp [tagged, insertions]

private theorem map_snd_tagged
    (observed : List (Obs Thread)) :
    (tagged observed).map Prod.snd = insertedLines observed := by
  simp [tagged, insertions, insertedLines, Function.comp_def]

section Inserted

variable
  [DecidableEq Thread]
  {config : LoggerConfig}
  {observed emitted : List (Obs Thread)}
  {state final : State Thread}
  (positive : 0 < config.policy.queueCapacity)
  (block : config.policy.overflowPolicy = .block)

include positive block

/-- When nobody is inside the logger, each thread's lines have been inserted. -/
private theorem lane_tagged
    (reached :
      (machine Thread config).ReachesBy Scripted observed state)
    (idle : ∀ thread, state.phase thread = .idle)
    (party : DrainLoop.Party Thread) :
    lane party (tagged observed) =
      match party with
      | .client thread =>
          (lane thread (calls observed)).filterMap config.line?
      | .worker => [] := by
  obtain ⟨schedule, inOrder, lanes⟩ :=
    Linearized.of_reaches positive block
      (reached.mono Scripted.orderly)
  rw [tagged, inOrder, lane_map]
  cases party with
  | worker =>
      rw [lane_map_eq_nil (by simp), List.map_nil]
  | client thread =>
      have settled := lanes thread
      rw [undecided?_eq_counting? (.of_reaches reached)
          (by simp [idle thread, Phase.member?]), idle thread] at settled
      have distinct :
          Function.Injective
            (DrainLoop.Party.client : Thread → DrainLoop.Party Thread) :=
        fun _ _ same => DrainLoop.Party.client.inj same
      rw [lane_map_injective distinct, config.map_line_lane_admitted]
      exact congrArg (List.filterMap config.line?) settled.symm

/-- The calls of one thread alone insert their lines in order. -/
private theorem insertedLines_of_completed
    (before :
      (machine Thread config).ReachesBy Scripted observed state)
    (idle : ∀ thread, state.phase thread = .idle)
    (after :
      (machine Thread config).ReachesBy Scripted (observed ++ emitted)
        final)
    (idleAfter : ∀ thread, final.phase thread = .idle)
    (thread : Thread)
    (requests : List Request)
    (called : calls emitted = requests.map (Prod.mk thread)) :
    insertedLines emitted = requests.filterMap config.line? := by
  have contributed
      (party : DrainLoop.Party Thread) :
      lane party (tagged emitted) =
        if party = .client thread then
          requests.filterMap config.line?
        else
          [] := by
    have whole := lane_tagged positive block after idleAfter party
    rw [tagged_append, lane_append,
      lane_tagged positive block before idle party] at whole
    cases party with
    | worker =>
        simpa using whole
    | client caller =>
        simp only [calls_append, lane_append, List.filterMap_append,
          List.append_cancel_left_eq, called, lane_map_mk] at whole
        rw [whole]
        by_cases same : caller = thread
        · subst same
          simp
        · simp [same, Ne.symm same]
  rw [← map_snd_tagged, map_snd_eq_lane (.client thread),
    contributed, if_pos rfl]
  intro party different
  rw [contributed, if_neg different]

end Inserted

/-! ## Every schedule can be carried out -/

section Schedules

variable
  [DecidableEq Thread]
  {config : LoggerConfig}
  {observed : List (Obs Thread)}
  {state : State Thread}
  (positive : 0 < config.policy.queueCapacity)
  (block : config.policy.overflowPolicy = .block)

include positive block

omit positive in
/-- When `~Logger` has returned, every sink has got what has been inserted. -/
theorem map_line_written_of_destroyReturned
    (reached :
      (machine Thread config).ReachesBy Orderly observed state)
    {destroyer : Thread}
    (returned : .destroyReturned destroyer ∈ observed)
    {position : Nat}
    (inside : position < config.sinkCount) :
    (written position observed).map (fun item => item.value.line) =
      insertedLines observed := by
  obtain ⟨⟨broke, finished⟩, _⟩ :=
    finished_of_destroyReturned reached returned
  have nothingEvicted : Queue.evicted (trace observed) = [] := by
    by_contra loses
    have policy := (LossesExplained.of_reaches reached).evicted loses
    rw [block] at policy
    cases policy
  rw [written_eq_survivors_of_finished reached finished inside,
    nothingEvicted, survivors_nil_right, insertedLines]

variable [Fintype Thread]

/-- Some run makes the calls of a schedule one after another. -/
private theorem exists_calls_run
    (schedule : List (Thread × Call)) :
    ∃ observed state,
      (machine Thread config).ReachesBy Scripted observed state ∧
        calls observed = requests schedule ∧
        insertedLines observed =
          (requests schedule).filterMap
            (fun request => config.line? request.2) ∧
        state.destroyer = none ∧
        ∀ thread, state.phase thread = .idle := by
  induction schedule using List.reverseRecOn with
  | nil =>
      exact ⟨[], _, .init, rfl, rfl, rfl, fun _ => rfl⟩
  | append_singleton earlier last inductionHypothesis =>
      obtain ⟨thread, call⟩ := last
      obtain ⟨before, state, reached, called, inserted, alive, idle⟩ :=
        inductionHypothesis
      obtain ⟨emitted, final, continued, calledLast, stillAlive,
        idleAfter⟩ :=
        exists_call_run positive reached alive (idle thread) call
      have insertedLast :=
        insertedLines_of_completed positive block reached idle continued
          idleAfter thread [call.toRequest] calledLast
      refine ⟨before ++ emitted, final, continued, ?_, ?_, stillAlive,
        idleAfter⟩
      · rw [calls_append, called, calledLast, requests_append]
        rfl
      · rw [insertedLines_append, inserted, insertedLast,
          requests_append, List.filterMap_append]
        rfl

/--
Some run makes the calls of a schedule one after another and destroys the
logger; every sink is given the lines of the schedule in its order.
-/
theorem exists_run_of_schedule
    (destroyer : Thread)
    (schedule : List (Thread × Call)) :
    ∃ observed state,
      (machine Thread config).ReachesBy Scripted observed state ∧
        .destroyReturned destroyer ∈ observed ∧
        calls observed = requests schedule ∧
        ∀ position,
          position < config.sinkCount →
          (written position observed).map (fun item => item.value.line) =
            (requests schedule).filterMap
              (fun request => config.line? request.2) := by
  obtain ⟨before, state, reached, called, inserted, alive, idle⟩ :=
    exists_calls_run positive block schedule
  obtain ⟨emitted, final, continued, noCalls, returned, idleAfter⟩ :=
    exists_destroy_run positive reached alive idle destroyer
  have nothing :=
    insertedLines_of_completed positive block reached idle continued
      idleAfter destroyer [] noCalls
  refine ⟨before ++ emitted, final, continued, returned, ?_, ?_⟩
  · rw [calls_append, noCalls, List.append_nil, called]
  · intro position inside
    rw [map_line_written_of_destroyReturned block
        (continued.mono Scripted.orderly) returned inside,
      insertedLines_append, inserted, nothing, List.filterMap_nil,
      List.append_nil]

end Schedules

end ConcLogger.Async
