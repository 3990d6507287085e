import ConcLogger.Async.Shutdown
import ConcLogger.FileLogger.Threads

namespace ConcLogger.FileLogger

open Concurrency
open Sinks

/-!
# The logger and the sink agree

Whoever is inside the sink on behalf of the logger writes the entry that its
iteration has yet to write, or is at a position of its loop over the sinks.
Hence the sink has got from the iterations at a position what the logger has
written there.
-/

variable
  {Thread : Type}
  [DecidableEq Thread]
  {config : LoggerConfig}
  {uses : Positions}
  {allowed : Async.State Thread → Async.Event Thread → Prop}
  {observed emitted : List (Obs Thread)}
  {state next : State Thread}
  {event : Event Thread}

/-! ## The two runs -/

/-- A coupled run contains a run of the logger. -/
theorem reaches_logger
    (reached :
      (machine Thread config).ReachesBy (Permitted config uses allowed)
        observed state) :
    (Async.machine Thread config).ReachesBy allowed
      (firsts observed) state.1 := by
  refine reached.firsts ?_
  intro state event own permitted isOwn
  cases event with
  | first event =>
      cases isOwn
      exact permitted.1
  | second event =>
      cases isOwn
  | both event called =>
      cases isOwn
      cases called with
      | advance caller =>
          exact permitted.1
      | _ =>
          exact permitted.elim

/-- A coupled run contains a run of the sink. -/
theorem reaches_sink
    {permitted : State Thread → Event Thread → Prop}
    (reached :
      (machine Thread config).ReachesBy permitted observed state) :
    (FileSink.machine (Caller Thread)).Reaches
      (seconds observed) state.2 :=
  reached.seconds

/-! ## Who is inside the sink -/

section Callers

variable
  {logger moved : Async.State Thread}
  {own : Async.Event Thread}
  {seen : List (Async.Obs Thread)}
  {thread : Thread}
  {caller : Caller Thread}

omit [DecidableEq Thread] in
/-- An iteration completes a call on the sink at the positions of the sink. -/
theorem caller?_eq_iteration
    {position : Nat} :
    caller? config uses logger own = some (.iteration position) ↔
      own = .write position ∧ uses position = true := by
  cases own with
  | write chosen =>
      simp only [caller?, Option.ite_none_right_eq_some,
        Option.some.injEq, Caller.iteration.injEq,
        Async.Event.write.injEq]
      constructor
      · rintro ⟨isUsed, rfl⟩
        exact ⟨rfl, isUsed⟩
      · rintro ⟨rfl, isUsed⟩
        exact ⟨isUsed, rfl⟩
  | client thread =>
      cases phase : logger.phase thread <;>
        simp [caller?, phase]
  | _ =>
      simp [caller?]

omit [DecidableEq Thread] in
/-- A client completes a call on the sink in its loops over the sinks. -/
theorem caller?_eq_client :
    caller? config uses logger own = some (.client thread) ↔
      own = .client thread ∧
        ∃ position,
          (logger.phase thread = .flushSinks position ∨
              logger.phase thread = .destroySinks position) ∧
            position < config.sinkCount ∧
            uses position = true := by
  cases own with
  | client mover =>
      by_cases same : mover = thread
      · subst same
        cases phase : logger.phase mover <;>
          simp [caller?, phase]
      · cases phase : logger.phase mover <;>
          simp [caller?, phase, same]
  | write chosen =>
      simp [caller?]
  | _ =>
      simp [caller?]

omit [DecidableEq Thread] in
/-- The logger does not complete the calls of others. -/
theorem caller?_ne_outsider
    {number : Nat} :
    caller? config uses logger own ≠ some (.outsider number) := by
  cases own with
  | write chosen =>
      simp [caller?]
  | client thread =>
      cases phase : logger.phase thread <;>
        simp [caller?, phase]
  | _ =>
      simp [caller?]

omit [DecidableEq Thread] in
/-- Whether a client is at the sink can be seen from its phase. -/
theorem caller?_congr
    (same : moved.phase thread = logger.phase thread) :
    caller? config uses moved (.client thread) =
      caller? config uses logger (.client thread) := by
  simp only [caller?, same]

omit [DecidableEq Thread] in
/-- A client at the sink is inside a call. -/
theorem busy_of_caller?
    (atSink :
      caller? config uses logger (.client thread) =
        some (.client thread)) :
    logger.phase thread ≠ .idle := by
  intro idle
  simp [caller?, idle] at atSink

/-- What a thread is inside the sink for. -/
def Fits
    (config : LoggerConfig)
    (uses : Positions)
    (logger : Async.State Thread) :
    Caller Thread → FileSink.Phase → Prop
  | .iteration position, .locking entry _
  | .iteration position, .inserting entry _ _ =>
      uses position = true ∧
        (logger.writing? position).map Queue.Item.value = some entry
  | .client thread, .flushLocking
  | .client thread, .flushing
  | .client thread, .flushUnlocking =>
      caller? config uses logger (.client thread) = some (.client thread)
  | .outsider _, _ | _, .idle => True
  | _, _ => False

omit [DecidableEq Thread] in
/-- Whoever has left the sink may go on. -/
theorem Fits.idle : Fits config uses logger caller .idle := by
  cases caller <;> trivial

/-- Steps of the logger that complete other calls leave a thread in the sink. -/
theorem Fits.of_step?
    {phase : FileSink.Phase}
    (fits : Fits config uses logger caller phase)
    (other : caller? config uses logger own ≠ some caller)
    (taken : logger.step? config own = some (moved, seen)) :
    Fits config uses moved caller phase := by
  cases caller with
  | iteration position =>
      cases phase with
      | locking entry tm | inserting entry tm rest =>
          obtain ⟨isUsed, writing⟩ := fits
          obtain ⟨item, isWriting, value⟩ :=
            Option.map_eq_some_iff.mp writing
          have different : own ≠ .write position := fun same =>
            other (caller?_eq_iteration.mpr ⟨same, isUsed⟩)
          refine ⟨isUsed, ?_⟩
          rw [Async.State.writing?_of_step? isWriting different taken]
          exact congrArg some value
      | _ =>
          exact fits
  | client thread =>
      cases phase with
      | flushLocking | flushing | flushUnlocking =>
          have different : own ≠ .client thread := by
            rintro rfl
            exact other fits
          have same :=
            Async.phase_of_step? (busy_of_caller? fits) different taken
          exact (caller?_congr same).trans fits
      | _ =>
          exact fits
  | outsider number =>
      trivial

end Callers

/-- Everybody inside the sink is there for the logger or is an outsider. -/
def AllFit
    (config : LoggerConfig)
    (uses : Positions)
    (state : State Thread) : Prop :=
  ∀ caller, Fits config uses state.1 caller (state.2.phase caller)

/-- A step of the logger and the sink together is the return of a call. -/
theorem returned
    {sink answer : FileSink.State (Caller Thread)}
    {caller : Caller Thread}
    {answered : List (FileSink.Obs (Caller Thread))}
    (step : FileSink.Step sink (.advance caller) answered answer)
    (returning : returns (sink.phase caller) = true) :
    answer = { sink.moveTo caller .idle with mutex := none } ∧
      ((∃ entry tm,
          sink.phase caller = .inserting entry tm [] ∧
            answered = [.wrote caller entry tm]) ∨
        (sink.phase caller = .flushUnlocking ∧
          answered = [.flushed caller])) := by
  cases step with
  | unlock caller entry tm phase =>
      exact ⟨rfl, Or.inl ⟨entry, tm, phase, rfl⟩⟩
  | flushUnlock caller phase =>
      exact ⟨rfl, Or.inr ⟨phase, rfl⟩⟩
  | lock caller entry tm phase | insert caller entry tm piece rest phase
  | flushLock caller phase | flushStream caller phase =>
      rw [phase] at returning
      cases returning

/-- Every permitted step keeps the logger and the sink in agreement. -/
theorem AllFit.step
    (fit : AllFit config uses state)
    (permitted : Permitted config uses allowed state event)
    (taken :
      (machine Thread config).step? state event = some (next, emitted)) :
    AllFit config uses next := by
  cases Machine.CoupledStep.of_step? taken with
  | first own moved seen stepped =>
      intro caller
      refine (fit caller).of_step? ?_ stepped
      rw [permitted.2]
      exact Option.some_ne_none caller |>.symm
  | second called answer answered joined =>
      have moveTo
          {caller : Caller Thread}
          {phase : FileSink.Phase}
          (moved :
            answer.phase = Function.update state.2.phase caller phase)
          (mover : Fits config uses state.1 caller phase) :
          AllFit config uses (state.1, answer) := by
        intro other
        rw [moved]
        exact forall_update (Fits config uses state.1)
          (fun other _ => fit other) mover other
      cases FileSink.Step.of_step? joined with
      | write caller entry tm idle =>
          refine moveTo rfl ?_
          cases caller with
          | iteration position =>
              exact permitted
          | client thread =>
              exact permitted.elim
          | outsider number =>
              trivial
      | flush caller idle =>
          refine moveTo rfl ?_
          cases caller with
          | iteration position =>
              exact permitted.elim
          | client thread =>
              exact permitted
          | outsider number =>
              trivial
      | lock caller entry tm phase
      | insert caller entry tm piece rest phase
      | flushLock caller phase | flushStream caller phase =>
          have before := fit caller
          rw [phase] at before
          refine moveTo rfl ?_
          cases caller <;> exact before
      | unlock | flushUnlock =>
          exact moveTo rfl Fits.idle
      | pass count =>
          exact fit
  | both own called moved answer seen answered stepped joined =>
      cases called with
      | advance caller =>
          obtain ⟨_, isCaller, returning⟩ := permitted
          obtain ⟨rfl, _⟩ :=
            returned (FileSink.Step.of_step? joined) returning
          refine forall_update (Fits config uses moved) ?_ Fits.idle
          intro other different
          refine (fit other).of_step? ?_ stepped
          rw [isCaller]
          exact fun same => different (Option.some.inj same).symm
      | _ =>
          exact permitted.elim

/-- In every reachable state the logger and the sink agree. -/
theorem AllFit.of_reaches
    (reached :
      (machine Thread config).ReachesBy (Permitted config uses allowed)
        observed state) :
    AllFit config uses state :=
  reached.invariant
    (fun _ state => AllFit config uses state)
    (fun _ => Fits.idle)
    (fun _ fit permitted taken => fit.step permitted taken)

/-! ## What the sink has got from each position -/

/-- The sink has got from a position what the logger has written there. -/
def Recorded
    (uses : Positions)
    (observed : List (Obs Thread)) : Prop :=
  ∀ position,
    uses position = true →
    (lane (.iteration position)
          (FileSink.writes (seconds observed))).map Prod.fst =
      (Async.written position (firsts observed)).map Queue.Item.value

/-- Every permitted step adds the same on both sides. -/
theorem Recorded.step
    (recorded : Recorded uses observed)
    (fit : AllFit config uses state)
    (permitted : Permitted config uses allowed state event)
    (taken :
      (machine Thread config).step? state event = some (next, emitted)) :
    Recorded uses (observed ++ emitted) := by
  suffices more : Recorded uses emitted by
    intro position isUsed
    simp only [seconds_append, firsts_append, FileSink.writes_append,
      Async.written_append, lane_append, List.map_append,
      recorded position isUsed, more position isUsed]
  intro position isUsed
  cases Machine.CoupledStep.of_step? taken with
  | first own moved seen stepped =>
      have other : own ≠ .write position := by
        intro same
        have atSink :
            caller? config uses state.1 own =
              some (.iteration position) :=
          caller?_eq_iteration.mpr ⟨same, isUsed⟩
        rw [permitted.2] at atSink
        cases atSink
      rw [seconds_map_inl, firsts_map_inl,
        Async.written_eq_nil_of_step? other stepped]
      rfl
  | second called answer answered joined =>
      rw [seconds_map_inr, firsts_map_inr]
      cases FileSink.Step.of_step? joined with
      | unlock caller entry tm phase =>
          cases caller with
          | iteration position | client thread =>
              have stays : returns (state.2.phase _) = false := permitted
              rw [phase] at stays
              cases stays
          | outsider number =>
              rfl
      | _ =>
          rfl
  | both own called moved answer seen answered stepped joined =>
      rw [seconds_append, firsts_append, seconds_map_inl,
        seconds_map_inr, firsts_map_inl, firsts_map_inr,
        List.nil_append, List.append_nil]
      cases called with
      | advance caller =>
          obtain ⟨_, isCaller, returning⟩ := permitted
          have inside := fit caller
          rcases (returned (FileSink.Step.of_step? joined) returning).2 with
            ⟨entry, tm, phase, rfl⟩ | ⟨phase, rfl⟩
          · rw [phase] at inside
            cases caller with
            | iteration chosen =>
                obtain ⟨rfl, _⟩ := caller?_eq_iteration.mp isCaller
                obtain ⟨item, _, isWriting, _, _, rfl⟩ :=
                  Async.State.write?_eq_some stepped
                obtain ⟨_, writing⟩ := inside
                rw [isWriting] at writing
                obtain rfl := Option.some.inj writing
                by_cases same : chosen = position
                · subst same
                  simp [FileSink.writes]
                · simp [FileSink.writes, same]
            | client thread =>
                exact inside.elim
            | outsider number =>
                exact (caller?_ne_outsider isCaller).elim
          · rw [phase] at inside
            cases caller with
            | iteration chosen =>
                exact inside.elim
            | client thread =>
                obtain ⟨rfl, _⟩ := caller?_eq_client.mp isCaller
                have other :
                    Async.Event.client thread ≠ .write position := by
                  simp
                rw [Async.written_eq_nil_of_step? other stepped]
                rfl
            | outsider number =>
                exact (caller?_ne_outsider isCaller).elim
      | _ =>
          exact permitted.elim

/-- In every reachable state the sink has got what the logger has written. -/
theorem Recorded.of_reaches
    (reached :
      (machine Thread config).ReachesBy (Permitted config uses allowed)
        observed state) :
    Recorded uses observed :=
  reached.invariant
    (fun observed _ => Recorded uses observed)
    (fun _ _ => rfl)
    (fun before recorded permitted taken =>
      recorded.step (AllFit.of_reaches before) permitted taken)

end ConcLogger.FileLogger
