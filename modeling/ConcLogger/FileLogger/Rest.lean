import ConcLogger.Async.Rest
import ConcLogger.FileLogger.Invariant
import ConcLogger.Sinks.Progress

namespace ConcLogger.FileLogger

open Concurrency
open Sinks

/-!
# When the logger and its sink get stuck

The threads of the logger and others wait for one another at `mutex_` of the
sink.  That adds no deadlock: whoever is inside the sink can leave it, and
where nobody is inside, whoever could go on in the logger alone can go on.
-/

/-- The worker outside the sinks, or somebody who may be inside the sink. -/
inductive Process (Thread : Type) where
  | worker
  | caller (caller : Caller Thread)
  deriving DecidableEq

/-- A thread of the logger as a process. -/
def Process.ofParty {Thread : Type} :
    DrainLoop.Party Thread → Process Thread
  | .client thread => .caller (.client thread)
  | .worker => .worker

/-- Whose step an event is; new calls of others and the buffer are nobody's. -/
def owner? {Thread : Type} : Event Thread → Option (Process Thread)
  | .first (.write position) | .both (.write position) _ =>
      some (.caller (.iteration position))
  | .first own | .both own _ =>
      own.party?.map .ofParty
  | .second (.write (.outsider _) _ _) | .second (.flush (.outsider _))
  | .second (.pass _) =>
      none
  | .second (.write caller _ _) | .second (.flush caller)
  | .second (.advance caller) =>
      some (.caller caller)

/-- The logger and the sink with the steps that they may take. -/
def system
    (Thread : Type)
    [DecidableEq Thread]
    (config : LoggerConfig)
    (uses : Positions) :
    Machine (State Thread) (Event Thread) (Obs Thread) :=
  (machine Thread config).confine (Permitted config uses fun _ _ => True)

/-- Nobody in the logger or inside the sink can take a step. -/
def AtRest
    {Thread : Type}
    [DecidableEq Thread]
    (config : LoggerConfig)
    (uses : Positions)
    (state : State Thread) : Prop :=
  ∀ process, ¬ Enabled (system Thread config uses) owner? process state

variable
  {Thread : Type}
  [DecidableEq Thread]
  {config : LoggerConfig}
  {uses : Positions}
  {observed : List (Obs Thread)}
  {state : State Thread}
  {own : Async.Event Thread}
  {caller : Caller Thread}

/-- A run of the system is a run of permitted steps. -/
theorem reachesBy_of_system
    {allowed : State Thread → Event Thread → Prop}
    (reached :
      (system Thread config uses).ReachesBy allowed observed state) :
    (machine Thread config).ReachesBy
      (Permitted config uses fun _ _ => True) observed state :=
  reached.of_confine.mono fun both => both.1

/-- An event lets its process move if it is permitted and possible. -/
theorem enabled_of_permitted
    {process : Process Thread}
    (event : Event Thread)
    (owned : owner? event = some process)
    (permitted : Permitted config uses (fun _ _ => True) state event)
    (possible : ((machine Thread config).step? state event).isSome = true) :
    Enabled (system Thread config uses) owner? process state := by
  obtain ⟨⟨next, emitted⟩, taken⟩ := Option.isSome_iff_exists.mp possible
  exact ⟨event, owned, Option.isSome_iff_exists.mpr
    ⟨_, Machine.confine_step?.mpr ⟨permitted, taken⟩⟩⟩

/-- So does an event of the sink alone. -/
theorem enabled_of_second
    {process : Process Thread}
    (called : FileSink.Event (Caller Thread))
    (owned : owner? (.second called : Event Thread) = some process)
    (permitted :
      Permitted config uses (fun _ _ => True) state (.second called))
    (possible : (state.2.step? called).isSome = true) :
    Enabled (system Thread config uses) owner? process state := by
  refine enabled_of_permitted (.second called) owned permitted ?_
  simpa [machine, Machine.couple, FileSink.machine] using possible

omit [DecidableEq Thread] in
/-- Whoever completes a call takes the step. -/
theorem owner?_of_caller?
    {logger : Async.State Thread}
    (isCaller : caller? config uses logger own = some caller)
    (called : FileSink.Event (Caller Thread)) :
    owner? (.both own called) = some (.caller caller) := by
  cases caller with
  | iteration position =>
      obtain ⟨rfl, _⟩ := caller?_eq_iteration.mp isCaller
      rfl
  | client thread =>
      obtain ⟨rfl, _⟩ := caller?_eq_client.mp isCaller
      rfl
  | outsider number =>
      exact (caller?_ne_outsider isCaller).elim

omit [DecidableEq Thread] in
/-- Steps of the logger are somebody's if they are so in the logger alone. -/
theorem exists_owner_iff :
    (∃ process, owner? (.first own) = some process) ↔
      ∃ party, own.party? = some party := by
  cases own <;> simp [owner?, Async.Event.party?]

/-- A client at the sink can leave it, as far as the logger is concerned. -/
theorem isSome_step?_of_atSink
    {logger : Async.State Thread}
    {thread : Thread}
    (atSink :
      caller? config uses logger (.client thread) =
        some (.client thread)) :
    (logger.step? config (.client thread)).isSome = true := by
  obtain ⟨_, position, phase | phase, inside, _⟩ :=
    caller?_eq_client.mp atSink <;>
    simp [Async.State.step?, Async.State.client?, phase, inside]

/-! ## Whoever is inside the sink -/

/-- Where a call is about to return, the logger waits for that. -/
theorem AllFit.exists_return
    (fit : AllFit config uses state)
    (returning : returns (state.2.phase caller) = true) :
    (∃ number, caller = .outsider number) ∨
      ∃ own,
        caller? config uses state.1 own = some caller ∧
          (state.1.step? config own).isSome = true := by
  have inside := fit caller
  cases caller with
  | iteration position =>
      cases phase : state.2.phase (.iteration position) with
      | inserting entry tm rest =>
          rw [phase] at inside
          obtain ⟨isUsed, writing⟩ := inside
          obtain ⟨item, isWriting, _⟩ := Option.map_eq_some_iff.mp writing
          exact Or.inr ⟨.write position,
            caller?_eq_iteration.mpr ⟨rfl, isUsed⟩,
            Async.State.isSome_write? isWriting⟩
      | flushUnlocking =>
          rw [phase] at inside
          exact inside.elim
      | _ =>
          rw [phase] at returning
          cases returning
  | client thread =>
      cases phase : state.2.phase (.client thread) with
      | inserting entry tm rest =>
          rw [phase] at inside
          exact inside.elim
      | flushUnlocking =>
          rw [phase] at inside
          exact Or.inr ⟨.client thread, inside,
            isSome_step?_of_atSink inside⟩
      | _ =>
          rw [phase] at returning
          cases returning
  | outsider number =>
      exact Or.inl ⟨number, rfl⟩

/-- Whoever can go on inside the sink can go on in the system. -/
theorem AllFit.enabled_of_advance
    (fit : AllFit config uses state)
    (possible : (state.2.advance? caller).isSome = true) :
    Enabled (system Thread config uses) owner? (.caller caller) state := by
  by_cases alone :
      Permitted config uses (fun _ _ => True) state
        (.second (.advance caller))
  · refine enabled_of_second (.advance caller) ?_ alone possible
    cases caller <;> rfl
  · have returning : returns (state.2.phase caller) = true := by
      cases caller with
      | outsider number =>
          exact (alone trivial).elim
      | _ =>
          exact Bool.of_not_eq_false alone
    rcases fit.exists_return returning with
      ⟨number, rfl⟩ | ⟨own, isCaller, goesOn⟩
    · exact (alone trivial).elim
    · refine enabled_of_permitted (.both own (.advance caller))
        (owner?_of_caller? isCaller _) ⟨trivial, isCaller, returning⟩ ?_
      obtain ⟨⟨moved, seen⟩, stepped⟩ :=
        Option.isSome_iff_exists.mp goesOn
      obtain ⟨⟨answer, answered⟩, joined⟩ :=
        Option.isSome_iff_exists.mp possible
      simp [machine, Machine.couple, FileSink.machine,
        FileSink.State.step?, Async.machine, stepped, joined]

/-- Whoever could complete a call on the sink can begin it. -/
theorem enabled_of_call
    (isCaller : caller? config uses state.1 own = some caller)
    (goesOn : (state.1.step? config own).isSome = true)
    (idle : state.2.phase caller = .idle) :
    Enabled (system Thread config uses) owner? (.caller caller) state := by
  cases caller with
  | iteration position =>
      obtain ⟨rfl, isUsed⟩ := caller?_eq_iteration.mp isCaller
      obtain ⟨⟨moved, seen⟩, stepped⟩ := Option.isSome_iff_exists.mp goesOn
      obtain ⟨item, _, isWriting, _⟩ :=
        Async.State.write?_eq_some stepped
      refine enabled_of_second
        (.write (.iteration position) item.value ⟨0, 0, 0, 0, 0, 0⟩) rfl
        ⟨isUsed, by rw [isWriting]; rfl⟩ ?_
      simp [FileSink.State.step?, idle]
  | client thread =>
      obtain ⟨rfl, _⟩ := caller?_eq_client.mp isCaller
      refine enabled_of_second (.flush (.client thread)) rfl isCaller ?_
      simp [FileSink.State.step?, idle]
  | outsider number =>
      exact (caller?_ne_outsider isCaller).elim

/-! ## Rest -/

/-- Where nobody can go on, nobody is inside the sink. -/
theorem AtRest.idle
    (rest : AtRest config uses state)
    (fit : AllFit config uses state)
    (held : FileSink.MutexHeld state.2)
    (caller : Caller Thread) :
    state.2.phase caller = .idle :=
  held.idle_of_stuck
    (fun other => Option.not_isSome_iff_eq_none.mp fun possible =>
      rest (.caller other) (fit.enabled_of_advance possible))
    caller

/-- Where nobody can go on, nobody in the logger could do so alone. -/
theorem AtRest.logger
    (rest : AtRest config uses state)
    (idle : ∀ caller, state.2.phase caller = .idle) :
    Async.AtRest config state.1 := by
  rintro party ⟨own, owned, goesOn⟩
  cases isCaller : caller? config uses state.1 own with
  | none =>
      obtain ⟨process, isOwner⟩ := exists_owner_iff.mpr ⟨party, owned⟩
      refine rest process (enabled_of_permitted (.first own) isOwner
        ⟨trivial, isCaller⟩ ?_)
      simpa [machine, Machine.couple] using goesOn
  | some caller =>
      exact rest (.caller caller)
        (enabled_of_call isCaller goesOn (idle caller))

/-- A logger at rest whose sink nobody uses cannot go on. -/
theorem atRest_of_logger
    (rest : Async.AtRest config state.1)
    (idle : ∀ caller, state.2.phase caller = .idle) :
    AtRest config uses state := by
  rintro process ⟨event, owned, possible⟩
  have stuck
      (own : Async.Event Thread)
      (isParty : ∃ party, own.party? = some party)
      (goesOn : (state.1.step? config own).isSome = true) :
      False := by
    obtain ⟨party, isOwn⟩ := isParty
    exact rest party ⟨own, isOwn, goesOn⟩
  obtain ⟨⟨next, emitted⟩, taken⟩ := Option.isSome_iff_exists.mp possible
  obtain ⟨permitted, stepped⟩ := Machine.confine_step?.mp taken
  cases Machine.CoupledStep.of_step? stepped with
  | first own moved seen alone =>
      exact stuck own (exists_owner_iff.mp ⟨process, owned⟩)
        (Option.isSome_iff_exists.mpr ⟨_, alone⟩)
  | second called answer answered joined =>
      cases called with
      | write caller entry tm =>
          cases caller with
          | iteration position =>
              obtain ⟨item, isWriting, _⟩ :=
                Option.map_eq_some_iff.mp permitted.2
              exact stuck (.write position) ⟨.worker, rfl⟩
                (Async.State.isSome_write? isWriting)
          | client thread =>
              exact permitted.elim
          | outsider number =>
              cases owned
      | flush caller =>
          cases caller with
          | iteration position =>
              exact permitted.elim
          | client thread =>
              exact stuck (.client thread) ⟨.client thread, rfl⟩
                (isSome_step?_of_atSink permitted)
          | outsider number =>
              cases owned
      | advance caller =>
          simp [FileSink.machine, FileSink.State.step?,
            FileSink.State.advance?, idle caller] at joined
      | pass count =>
          cases owned
  | both own called moved answer seen answered together joined =>
      refine stuck own (exists_owner_iff.mp ⟨process, ?_⟩)
        (Option.isSome_iff_exists.mpr ⟨_, together⟩)
      cases own <;> exact owned

/-- Where nobody can go on, nobody is inside the sink and the logger rests. -/
theorem AtRest.resting
    [Fintype Thread]
    (positive : 0 < config.policy.queueCapacity)
    (reached : (system Thread config uses).Reaches observed state)
    (rest : AtRest config uses state) :
    Async.Resting state.1 ∧ ∀ caller, state.2.phase caller = .idle := by
  have permitted := reachesBy_of_system reached
  have idle :=
    rest.idle (AllFit.of_reaches permitted)
      (FileSink.MutexHeld.of_reaches (reaches_sink permitted))
  exact ⟨(rest.logger idle).resting positive (reaches_logger permitted), idle⟩

/--
The sink adds no deadlock.  Nobody in the logger or inside the sink can go on
exactly when nobody is inside the sink and the logger rests: every call has
returned but for flushers that sleep, and the worker has nothing to do.
-/
theorem stuck_iff_logger_waits
    [Fintype Thread]
    (positive : 0 < config.policy.queueCapacity)
    (reached : (system Thread config uses).Reaches observed state) :
    AtRest config uses state ↔
      Async.Resting state.1 ∧ ∀ caller, state.2.phase caller = .idle := by
  refine ⟨fun rest => rest.resting positive reached, ?_⟩
  rintro ⟨resting, idle⟩
  exact atRest_of_logger
    (resting.atRest (reaches_logger (reachesBy_of_system reached))) idle

/-- The worker waits for somebody else who holds `mutex_`; nobody is stuck. -/
theorem stuck_iff_logger_waits_of_shared_sink :
    ∃ (observed : List (Obs (Fin 1))) (state : State (Fin 1)),
      (system (Fin 1) { module := "net", sinkCount := 1 }
          (fun _ => true)).Reaches observed state ∧
        state.1.stage = .dispatching {0} ∧
        state.2.mutex = some (.outsider 5) ∧
        state.2.advance? (.iteration 0) = none ∧
        ¬ AtRest { module := "net", sinkCount := 1 } (fun _ => true)
          state := by
  obtain ⟨observed, state, reached, feature⟩ :=
    (system (Fin 1) { module := "net", sinkCount := 1 }
        (fun _ => true)).exists_reaches
      [.first (.log 0 .warn "kept" false ⟨0, ⟨0, 1, 1, false, 0, 0⟩⟩),
        .first (.client 0), .first (.advance (.client 0)),
        .first (.notifyOne (.client 0) .worker), .first (.client 0),
        .first (.client 0), .first .worker, .first (.advance .worker),
        .first (.advance .worker), .first .worker, .first .worker,
        .second (.write (.outsider 5)
          (buildEntry "db" .info "theirs" false
            ⟨0, ⟨0, 1, 1, false, 0, 0⟩⟩) ⟨1, 0, 0, 1, 0, 70⟩),
        .second (.advance (.outsider 5)),
        .second (.write (.iteration 0)
          (buildEntry "net" .warn "kept" false
            ⟨0, ⟨0, 1, 1, false, 0, 0⟩⟩) ⟨1, 0, 0, 1, 0, 70⟩)]
      (fun _ state =>
        decide
          (state.1.stage = .dispatching {0} ∧
            state.2.mutex = some (.outsider 5) ∧
            state.2.phase (.outsider 5) ≠ .idle ∧
            (state.2.advance? (.iteration 0)).isNone))
      (by decide +kernel)
  obtain ⟨stage, holder, inside, waits⟩ := of_decide_eq_true feature
  refine ⟨observed, state, reached, stage, holder,
    Option.isNone_iff_eq_none.mp waits, fun rest => inside ?_⟩
  exact ((stuck_iff_logger_waits (by decide) reached).mp rest).2 _

end ConcLogger.FileLogger
