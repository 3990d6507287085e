import Mathlib.Algebra.Order.BigOperators.Group.Finset
import ConcLogger.Async.Liveness
import ConcLogger.FileLogger.Rest

namespace ConcLogger.FileLogger

open Concurrency
open Sinks

/-!
# Calls return from a shared sink

Each step of the logger brings it nearer to rest and gives rise to a bounded
number of calls on the sink, each of which takes a bounded number of steps.
So the system comes to rest once nobody calls the logger or the sink any more,
whatever the buffer of the stream does meanwhile.
-/

variable
  {Thread : Type}
  [DecidableEq Thread]
  {config : LoggerConfig}
  {uses : Positions}
  {observed emitted : List (Obs Thread)}
  {state next : State Thread}
  {event : Event Thread}
  {caller : Caller Thread}

/-! ## Others who have the sink -/

/-- Only outsiders below a number are inside the sink. -/
def OutsidersBelow (bound : Nat) (state : State Thread) : Prop :=
  ∀ number, bound ≤ number → state.2.phase (.outsider number) = .idle

/-- The outsider who calls the sink. -/
def outsider? : Event Thread → Option Nat
  | .second (.write (.outsider number) _ _)
  | .second (.flush (.outsider number)) => some number
  | _ => none

/-- What the sink does leaves the outsiders outside who do not call it. -/
private theorem idle_of_sink_step
    {sink answer : FileSink.State (Caller Thread)}
    {called : FileSink.Event (Caller Thread)}
    {answered : List (FileSink.Obs (Caller Thread))}
    {number : Nat}
    (idle : sink.phase (.outsider number) = .idle)
    (noCall :
      outsider? (.second called : Event Thread) ≠ some number)
    (step : FileSink.Step sink called answered answer) :
    answer.phase (.outsider number) = .idle := by
  have others
      {mover : Caller Thread}
      {phase : FileSink.Phase}
      (moves : mover ≠ .outsider number) :
      Function.update sink.phase mover phase (.outsider number) = .idle := by
    rw [Function.update_of_ne moves.symm]
    exact idle
  cases step with
  | write caller entry tm | flush caller =>
      refine others ?_
      rintro rfl
      exact noCall rfl
  | lock caller entry tm phase | insert caller entry tm piece rest phase
  | unlock caller entry tm phase | flushLock caller phase
  | flushStream caller phase | flushUnlock caller phase =>
      refine others ?_
      rintro rfl
      rw [idle] at phase
      cases phase
  | pass count =>
      exact idle

/-- Outsiders get inside the sink by their calls only. -/
theorem OutsidersBelow.step
    {bound : Nat}
    (below : OutsidersBelow bound state)
    (noCall : ∀ number, outsider? event = some number → number < bound)
    (taken :
      (system Thread config uses).step? state event =
        some (next, emitted)) :
    OutsidersBelow bound next := by
  intro number above
  have idle := below number above
  have notCalled : outsider? event ≠ some number := fun isCall =>
    Nat.not_lt_of_le above (noCall number isCall)
  obtain ⟨permitted, stepped⟩ := Machine.confine_step?.mp taken
  cases Machine.CoupledStep.of_step? stepped with
  | first own moved seen alone =>
      exact idle
  | second called answer answered joined =>
      exact idle_of_sink_step idle notCalled
        (FileSink.Step.of_step? joined)
  | both own called moved answer seen answered together joined =>
      cases called with
      | advance caller =>
          have step : FileSink.Step state.2 (.advance caller) answered answer :=
            .of_step? joined
          exact idle_of_sink_step idle (by simp [outsider?]) step
      | _ =>
          exact permitted.elim

omit [DecidableEq Thread] in
/-- Outsiders below a number are below any greater one. -/
theorem OutsidersBelow.mono
    {bound greater : Nat}
    (below : OutsidersBelow bound state)
    (less : bound ≤ greater) :
    OutsidersBelow greater state :=
  fun number above => below number (less.trans above)

/-- In every reachable state finitely many outsiders are inside the sink. -/
theorem exists_outsidersBelow
    (reached : (system Thread config uses).Reaches observed state) :
    ∃ bound, OutsidersBelow bound state := by
  refine reached.invariant
    (fun _ state => ∃ bound, OutsidersBelow bound state)
    ⟨0, fun _ _ => rfl⟩ ?_
  rintro _ _ state next event _ ⟨bound, below⟩ _ taken
  refine ⟨max bound ((outsider? event).elim 0 (· + 1)),
    (below.mono (Nat.le_max_left _ _)).step ?_ taken⟩
  intro number isCall
  rw [isCall]
  exact Nat.lt_of_lt_of_le (Nat.lt_succ_self number) (Nat.le_max_right _ _)

/-! ## What is left of the calls on the sink -/

/-- The logger is about to make a call on the sink, or has made it. -/
def Due
    (config : LoggerConfig)
    (uses : Positions)
    (logger : Async.State Thread) :
    Caller Thread → Bool
  | .iteration position =>
      uses position && (logger.writing? position).isSome
  | .client thread =>
      decide
        (caller? config uses logger (.client thread) =
          some (.client thread))
  | .outsider _ => false

/-- The steps of a call that are still to come; a call takes sixteen at most. -/
def callLeft
    (config : LoggerConfig)
    (uses : Positions)
    (state : State Thread)
    (caller : Caller Thread) : Nat :=
  if state.2.phase caller = .idle then
    if Due config uses state.1 caller then 17 else 0
  else
    (state.2.phase caller).left

/-- Everybody who may be inside the sink. -/
def callers
    (Thread : Type)
    [DecidableEq Thread]
    [Fintype Thread]
    (config : LoggerConfig)
    (bound : Nat) :
    Finset (Caller Thread) :=
  (Finset.range config.sinkCount).image .iteration ∪
    Finset.univ.image .client ∪
    (Finset.range bound).image .outsider

/--
The steps that the system still takes at most: after each step of the logger
everybody may have to make another call on the sink.
-/
def left
    [Fintype Thread]
    (config : LoggerConfig)
    (uses : Positions)
    (bound : Nat)
    (state : State Thread) : Nat :=
  (17 * (callers Thread config bound).card + 1) * state.1.work config +
    ∑ caller ∈ callers Thread config bound, callLeft config uses state caller

/-- Whoever is inside the sink is there for a call of the logger or an outsider. -/
theorem Fits.due_or_outsider
    {logger : Async.State Thread}
    {phase : FileSink.Phase}
    (fits : Fits config uses logger caller phase)
    (inside : phase ≠ .idle) :
    Due config uses logger caller = true ∨
      ∃ number, caller = .outsider number := by
  cases caller with
  | iteration position =>
      left
      cases phase with
      | idle =>
          exact (inside rfl).elim
      | locking entry tm | inserting entry tm rest =>
          obtain ⟨isUsed, writing⟩ := fits
          obtain ⟨item, isWriting, _⟩ := Option.map_eq_some_iff.mp writing
          simp [Due, isUsed, isWriting]
      | _ =>
          exact fits.elim
  | client thread =>
      left
      cases phase with
      | idle =>
          exact (inside rfl).elim
      | flushLocking | flushing | flushUnlocking =>
          exact decide_eq_true fits
      | _ =>
          exact fits.elim
  | outsider number =>
      exact Or.inr ⟨number, rfl⟩

/-- Whoever has steps left at the sink is one of its callers. -/
theorem mem_callers_of_callLeft
    [Fintype Thread]
    {bound : Nat}
    (fit : AllFit config uses state)
    (bounded : Async.TodoBounded config state.1)
    (below : OutsidersBelow bound state)
    (remains : callLeft config uses state caller ≠ 0) :
    caller ∈ callers Thread config bound := by
  have active :
      Due config uses state.1 caller = true ∨
        ∃ number,
          caller = .outsider number ∧ state.2.phase caller ≠ .idle := by
    by_cases idle : state.2.phase caller = .idle
    · simp only [callLeft, idle, if_true, ne_eq, ite_eq_right_iff,
        Classical.not_imp] at remains
      exact Or.inl remains.1
    · exact ((fit caller).due_or_outsider idle).imp_right
        fun ⟨number, isOutsider⟩ => ⟨number, isOutsider, idle⟩
  rcases active with due | ⟨number, rfl, inside⟩
  · cases caller with
    | iteration position =>
        simp only [Due, Bool.and_eq_true] at due
        obtain ⟨item, isWriting⟩ := Option.isSome_iff_exists.mp due.2
        obtain ⟨todo, stage, isTodo, _⟩ :=
          Async.State.writing?_eq_some.mp isWriting
        have within :=
          LoggerConfig.mem_dispatch.mp (bounded todo stage isTodo)
        simp [callers, within]
    | client thread =>
        simp [callers]
    | outsider number =>
        cases due
  · have isBelow : number < bound := by
      by_contra outside
      exact inside (below number (Nat.le_of_not_lt outside))
    simp [callers, isBelow]

/-! ## What one step leaves -/

/-- A step of the logger gives everybody one call more to make at most. -/
private theorem callLeft_le_of_logger
    (phase :
      next.2.phase caller = state.2.phase caller ∨
        next.2.phase caller = .idle) :
    callLeft config uses next caller ≤
      callLeft config uses state caller + 17 := by
  by_cases idle : next.2.phase caller = .idle
  · simp only [callLeft, idle, if_true]
    split <;> omega
  · have same := phase.resolve_right idle
    simp only [callLeft, same ▸ idle, if_false, same]
    omega

/-- A step of the logger leaves less, even if it makes everybody call the sink. -/
private theorem left_lt_of_logger
    [Fintype Thread]
    {bound : Nat}
    (less : next.1.work config < state.1.work config)
    (phase :
      ∀ caller,
        next.2.phase caller = state.2.phase caller ∨
          next.2.phase caller = .idle) :
    left config uses bound next < left config uses bound state := by
  have calls :
      ∑ caller ∈ callers Thread config bound,
          callLeft config uses next caller ≤
        ∑ caller ∈ callers Thread config bound,
          (callLeft config uses state caller + 17) :=
    Finset.sum_le_sum fun caller _ => callLeft_le_of_logger (phase caller)
  rw [Finset.sum_add_distrib, Finset.sum_const_nat fun _ _ => rfl] at calls
  have steps :
      (17 * (callers Thread config bound).card + 1) *
          (next.1.work config + 1) ≤
        (17 * (callers Thread config bound).card + 1) *
          state.1.work config :=
    Nat.mul_le_mul_left _ less
  rw [Nat.mul_succ] at steps
  unfold left
  omega

/-- A step inside the sink that is owned brings one call nearer to its end. -/
private theorem left_lt_of_sink
    [Fintype Thread]
    {bound : Nat}
    (fit : AllFit config uses state)
    (bounded : Async.TodoBounded config state.1)
    (below : OutsidersBelow bound state)
    (same : next.1 = state.1)
    (others :
      ∀ other,
        other ≠ caller → next.2.phase other = state.2.phase other)
    (less :
      callLeft config uses next caller <
        callLeft config uses state caller) :
    left config uses bound next < left config uses bound state := by
  unfold left
  rw [same]
  refine Nat.add_lt_add_left (Finset.sum_lt_sum ?_ ?_) _
  · intro other _
    by_cases isCaller : other = caller
    · rw [isCaller]
      exact less.le
    · simp only [callLeft, others other isCaller, same]
      exact le_rfl
  · exact ⟨caller,
      mem_callers_of_callLeft fit bounded below
        (Nat.ne_of_gt (Nat.zero_lt_of_lt less)), less⟩

/-- The last step inside the sink is the return of the call. -/
private theorem returns_of_idle
    {sink answer : FileSink.State (Caller Thread)}
    {answered : List (FileSink.Obs (Caller Thread))}
    (step : FileSink.Step sink (.advance caller) answered answer)
    (outside : answer.phase caller = .idle) :
    returns (sink.phase caller) = true := by
  cases step with
  | unlock caller entry tm phase | flushUnlock caller phase =>
      rw [phase]
      rfl
  | lock caller entry tm phase | insert caller entry tm piece rest phase
  | flushLock caller phase | flushStream caller phase =>
      simp at outside

/-- The owned steps of the sink alone bring a call nearer to its end. -/
private theorem callLeft_lt_of_second
    {called : FileSink.Event (Caller Thread)}
    {answer : FileSink.State (Caller Thread)}
    {answered : List (FileSink.Obs (Caller Thread))}
    (owned : owner? (.second called : Event Thread) = some (.caller caller))
    (permitted :
      Permitted config uses (fun _ _ => True) state (.second called))
    (step : FileSink.Step state.2 called answered answer) :
    callLeft config uses (state.1, answer) caller <
        callLeft config uses state caller ∧
      ∀ other,
        other ≠ caller → answer.phase other = state.2.phase other := by
  cases called with
  | write mover entry tm =>
      cases step with
      | write mover entry tm idle =>
          cases mover with
          | iteration position =>
              cases owned
              obtain ⟨isUsed, writing⟩ := permitted
              obtain ⟨item, isWriting, _⟩ := Option.map_eq_some_iff.mp writing
              have few := FileSink.length_pieces_le entry tm
              refine ⟨?_, fun other different =>
                Function.update_of_ne different _ _⟩
              simp [callLeft, idle, Due, isUsed, isWriting,
                FileSink.Phase.left]
              omega
          | client thread =>
              exact permitted.elim
          | outsider number =>
              cases owned
  | flush mover =>
      cases step with
      | flush mover idle =>
          cases mover with
          | iteration position =>
              exact permitted.elim
          | client thread =>
              cases owned
              have atSink :
                  caller? config uses state.1 (.client thread) =
                    some (.client thread) :=
                permitted
              refine ⟨?_, fun other different =>
                Function.update_of_ne different _ _⟩
              simp [callLeft, idle, Due, atSink, FileSink.Phase.left]
          | outsider number =>
              cases owned
  | advance mover =>
      obtain rfl : mover = caller := by
        cases mover <;> cases owned <;> rfl
      obtain ⟨moved, one⟩ := step.left_eq
      have inside : state.2.phase mover ≠ .idle := by
        intro idle
        rw [idle] at one
        exact Nat.succ_ne_zero _ one.symm
      refine ⟨?_, fun other different => ?_⟩
      · by_cases outside : answer.phase mover = .idle
        · -- Only outsiders return without the logger.
          have returning := returns_of_idle step outside
          cases mover with
          | outsider number =>
              simp only [callLeft, outside, inside, if_true, if_false, Due,
                Bool.false_eq_true]
              omega
          | iteration position | client thread =>
              have alone : returns (state.2.phase _) = false := permitted
              rw [returning] at alone
              cases alone
        · simp only [callLeft, outside, inside, if_false]
          omega
      · rw [moved]
        exact Function.update_of_ne different _ _
  | pass count =>
      cases owned

/-- Every owned step leaves less to do. -/
theorem left_lt
    [Fintype Thread]
    {bound : Nat}
    (reached : (system Thread config uses).Reaches observed state)
    (below : OutsidersBelow bound state)
    (owned : owner? event ≠ none)
    (taken :
      (system Thread config uses).step? state event =
        some (next, emitted)) :
    left config uses bound next < left config uses bound state := by
  have run := reachesBy_of_system reached
  have inLogger := reaches_logger run
  have fit := AllFit.of_reaches run
  have works
      {own : Async.Event Thread}
      {moved : Async.State Thread}
      {seen : List (Async.Obs Thread)}
      (isOwned : owner? (.first own) ≠ none)
      (stepped : state.1.step? config own = some (moved, seen)) :
      moved.work config < state.1.work config := by
    have isParty : own.party? ≠ none := by
      obtain ⟨party, isParty⟩ :=
        exists_owner_iff.mp (Option.ne_none_iff_exists'.mp isOwned)
      simp [isParty]
    have paid :=
      (Async.Step.of_step? stepped).work_lt (.of_reaches inLogger)
        (.of_reaches (Async.reaches_core inLogger))
    rwa [Async.Event.price_eq_zero _ isParty, Nat.add_zero] at paid
  obtain ⟨permitted, stepped⟩ := Machine.confine_step?.mp taken
  cases Machine.CoupledStep.of_step? stepped with
  | first own moved seen alone =>
      exact left_lt_of_logger (works owned alone) fun _ => Or.inl rfl
  | second called answer answered joined =>
      obtain ⟨process, isOwner⟩ := Option.ne_none_iff_exists'.mp owned
      cases process with
      | worker =>
          rcases called with ⟨_ | _ | _, _, _⟩ | ⟨_ | _ | _⟩ | _ | _ <;>
            cases isOwner
      | caller caller =>
          obtain ⟨less, others⟩ :=
            callLeft_lt_of_second isOwner permitted
              (FileSink.Step.of_step? joined)
          exact left_lt_of_sink fit (.of_reaches inLogger) below rfl others
            less
  | both own called moved answer seen answered together joined =>
      cases called with
      | advance caller =>
          obtain ⟨rfl, _⟩ :=
            returned (FileSink.Step.of_step? joined) permitted.2.2
          refine left_lt_of_logger (works ?_ together) fun other => ?_
          · cases own <;> exact owned
          · by_cases same : other = caller
            · exact Or.inr (by simp [same])
            · exact Or.inl (Function.update_of_ne same _ _)
      | _ =>
          exact permitted.elim

/-- The buffer of the stream has no part in what the others can do. -/
theorem enabled_of_pass
    {count : Nat}
    {process : Process Thread}
    (enabled : Enabled (system Thread config uses) owner? process state)
    (taken :
      (system Thread config uses).step? state (.second (.pass count)) =
        some (next, emitted)) :
    Enabled (system Thread config uses) owner? process next := by
  obtain ⟨event, owned, possible⟩ := enabled
  obtain ⟨⟨moved, seen⟩, wasTaken⟩ := Option.isSome_iff_exists.mp possible
  obtain ⟨permitted, stepped⟩ := Machine.confine_step?.mp wasTaken
  have stillPermitted :
      Permitted config uses (fun _ _ => True) next event := by
    cases (Machine.confine_step?.mp taken).2
    exact permitted
  have same :
      next.1 = state.1 ∧
        next.2.mutex = state.2.mutex ∧
        next.2.phase = state.2.phase := by
    cases (Machine.confine_step?.mp taken).2
    exact ⟨rfl, rfl, rfl⟩
  have stillPossible :
      ((machine Thread config).step? next event).isSome =
        ((machine Thread config).step? state event).isSome :=
    Machine.isSome_couple_step? state next same.1
      (FileSink.State.isSome_step?_congr same.2.1 same.2.2) event
  exact enabled_of_permitted event owned stillPermitted
    (stillPossible.trans (Option.isSome_iff_exists.mpr ⟨_, stepped⟩))

/-- What the buffer of the stream does leaves as much to do as before. -/
theorem left_eq_of_pass
    [Fintype Thread]
    {bound count : Nat}
    (taken :
      (system Thread config uses).step? state (.second (.pass count)) =
        some (next, emitted)) :
    left config uses bound next = left config uses bound state := by
  cases (Machine.confine_step?.mp taken).2
  rfl

/-! ## Fair executions -/

/--
From a position on nobody calls the logger or the sink and nobody is woken for
no reason.  The buffer of the stream may pass characters on to the file.
-/
def QuietFrom
    (execution : Execution (system Thread config uses))
    (start : Nat) : Prop :=
  ∀ position event,
    start ≤ position →
    execution.event position = some event →
    owner? event ≠ none ∨ ∃ count, event = .second (.pass count)

/-- If no other outsiders call the sink, no others get inside. -/
private theorem OutsidersBelow.stays
    {execution : Execution (system Thread config uses)}
    {start bound : Nat}
    (noCall :
      ∀ position chosen number,
        start ≤ position →
        execution.event position = some chosen →
        outsider? chosen = some number →
        number < bound)
    (below : OutsidersBelow bound (execution.state start))
    (position : Nat)
    (later : start ≤ position) :
    OutsidersBelow bound (execution.state position) := by
  induction position, later using Nat.le_induction with
  | base =>
      exact below
  | succ position later inductionHypothesis =>
      rcases execution.step position with
        ⟨chosen, isChosen, taken⟩ | ⟨_, same, _⟩
      · exact inductionHypothesis.step
          (fun number => noCall position chosen number later isChosen) taken
      · rwa [same]

omit [DecidableEq Thread] in
/-- The calls of outsiders are nobody's steps. -/
theorem outsider?_eq_none
    (quiet : owner? event ≠ none ∨ ∃ count, event = .second (.pass count)) :
    outsider? event = none := by
  rcases quiet with owned | ⟨count, rfl⟩
  · rcases event with _ | (⟨_ | _ | _, _, _⟩ | ⟨_ | _ | _⟩ | _ | _) | _ <;>
      first | rfl | exact (owned rfl).elim
  · rfl

/-- A quiet execution that is fair comes to rest. -/
private theorem settles
    [Fintype Thread]
    (execution : Execution (system Thread config uses))
    (reached :
      (system Thread config uses).Reaches observed (execution.state 0))
    {start : Nat}
    (quiet : QuietFrom execution start)
    (fair : ∀ process, execution.WeaklyFair owner? process) :
    ∃ finish,
      start ≤ finish ∧
        ∀ position,
          finish ≤ position →
          AtRest config uses (execution.state position) := by
  obtain ⟨bound, below⟩ :=
    exists_outsidersBelow (execution.reaches_record reached start)
  have stays :=
    below.stays fun position chosen number later isChosen isCall => by
      rw [outsider?_eq_none (quiet position chosen later isChosen)] at isCall
      cases isCall
  obtain ⟨finish, later, rests⟩ :=
    execution.settles owner? (left config uses bound)
      (fun position chosen later isChosen owned =>
        left_lt (execution.reaches_record reached position)
          (stays position later) owned (execution.step?_of_event isChosen))
      (by
        intro position chosen later isChosen nobody
        have taken := execution.step?_of_event isChosen
        rcases quiet position chosen later isChosen with
          owned | ⟨count, rfl⟩
        · exact (owned nobody).elim
        · exact ⟨(left_eq_of_pass taken).le,
            fun process enabled => enabled_of_pass enabled taken⟩)
  exact ⟨finish, later, fun position after process =>
    rests process (fair process) position after⟩

/--
Calls return although the sink is shared.  If from some position on nobody
calls the logger or the sink and nobody is woken for no reason, then in a fair
execution everybody leaves the sink and the logger comes to rest: every `log()`
call and every `~Logger` has returned, and a `flush()` call that has not is
asleep on `drained_cv_`.
-/
theorem calls_return_from_shared_sink
    [Fintype Thread]
    (positive : 0 < config.policy.queueCapacity)
    (execution : Execution (system Thread config uses))
    (reached :
      (system Thread config uses).Reaches observed (execution.state 0))
    {start : Nat}
    (quiet : QuietFrom execution start)
    (fair : ∀ process, execution.WeaklyFair owner? process) :
    ∃ finish,
      start ≤ finish ∧
        ∀ position,
          finish ≤ position →
          Async.Resting (execution.state position).1 ∧
            ∀ caller, (execution.state position).2.phase caller = .idle := by
  obtain ⟨finish, later, rests⟩ := settles execution reached quiet fair
  refine ⟨finish, later, fun position after => ?_⟩
  exact (rests position after).resting positive
    (execution.reaches_record reached position)

/-- The last owed notification is not lost, and nobody destroys the logger. -/
def KeptAlive (state : State Thread) (event : Event Thread) : Prop :=
  ∀ own, event.first? = some own → Async.KeptAlive state.1 own

instance decidableKeptAlive
    [Fintype Thread]
    (state : State Thread)
    (event : Event Thread) :
    Decidable (KeptAlive state event) :=
  match isFirst : event.first? with
  | none =>
      .isTrue (by simp [KeptAlive, isFirst])
  | some own =>
      decidable_of_iff (Async.KeptAlive state.1 own)
        (by simp [KeptAlive, isFirst])

/-- What is permitted and kept is permitted to a logger that is kept. -/
private theorem Permitted.of_kept
    (permitted : Permitted config uses (fun _ _ => True) state event)
    (kept : KeptAlive state event) :
    Permitted config uses Async.KeptAlive state event := by
  cases event with
  | first own =>
      exact ⟨kept own rfl, permitted.2⟩
  | second called =>
      cases called with
      | write caller entry tm | flush caller | advance caller =>
          cases caller <;> exact permitted
      | pass count =>
          trivial
  | both own called =>
      cases called with
      | advance caller =>
          exact ⟨kept own rfl, permitted.2⟩
      | _ =>
          exact permitted.elim

/-- All calls have returned, and all that was logged is with the sink. -/
structure Served
    (config : LoggerConfig)
    (uses : Positions)
    (observed : List (Obs Thread))
    (state : State Thread) : Prop where
  clients : ∀ thread, state.1.phase thread = .idle
  outside : ∀ caller, state.2.phase caller = .idle
  /-- What has been logged has been written or discarded by the policy. -/
  accounted :
    Async.AllAccounted config (firsts observed) (firsts observed)
  /-- The stream is made up of the records of the complete calls. -/
  stream :
    state.2.stream = FileSink.text (FileSink.records (seconds observed))
  recorded : Recorded uses observed

/--
If no wakeup is lost and nobody destroys the logger, every `flush()` call
returns as well, and by then the sink has got what was logged: its stream is
made up of whole records, those from each position are of what the logger has
written there, and that is all but what the overflow policy has discarded.
-/
theorem flushes_return_from_shared_sink
    [Fintype Thread]
    (positive : 0 < config.policy.queueCapacity)
    (execution : Execution (system Thread config uses))
    (reached :
      (system Thread config uses).ReachesBy KeptAlive observed
        (execution.state 0))
    (kept :
      ∀ position event,
        execution.event position = some event →
        KeptAlive (execution.state position) event)
    {start : Nat}
    (quiet : QuietFrom execution start)
    (fair : ∀ process, execution.WeaklyFair owner? process) :
    ∃ finish,
      start ≤ finish ∧
        ∀ position,
          finish ≤ position →
          Served config uses (observed ++ execution.record position)
            (execution.state position) := by
  obtain ⟨finish, later, rests⟩ :=
    settles execution (reached.mono fun _ => trivial) quiet fair
  refine ⟨finish, later, fun position after => ?_⟩
  have run :
      (machine Thread config).ReachesBy
        (Permitted config uses Async.KeptAlive)
        (observed ++ execution.record position)
        (execution.state position) :=
    (execution.reachesBy_record reached kept position).of_confine.mono
      fun both => Permitted.of_kept both.1 both.2
  have inLogger := reaches_logger run
  obtain ⟨resting, outside⟩ :=
    (rests position after).resting positive
      (execution.reaches_record (reached.mono fun _ => trivial) position)
  obtain ⟨idle, _, zero⟩ := resting.idle_of_kept inLogger
  exact {
    clients := idle
    outside := outside
    accounted :=
      Async.allAccounted_of_pending_zero positive
        (inLogger.mono fun permitted => permitted.2) zero
    stream :=
      (FileSink.Whole.of_reaches (reaches_sink run)).between fun caller => by
        rw [outside caller]
        rfl
    recorded := Recorded.of_reaches run
  }

/-! ## Three calls at once -/

/-- The entry that the outsider writes. -/
def theirs : LogEntry :=
  buildEntry "db" .info "theirs" false ⟨0, ⟨0, 1, 1, false, 0, 0⟩⟩

/-- A log, a flush and somebody else's write; then everybody goes on. -/
def callsAtOnce (client flusher : Thread) : List (Event Thread) :=
  List.flatten
    [[.first (.log client .warn "kept" false ⟨0, ⟨0, 1, 1, false, 0, 0⟩⟩),
      .first (.flush flusher),
      .second (.write (.outsider 0) theirs ⟨1, 0, 0, 1, 0, 70⟩),
      .first (.client client), .first (.advance (.client client)),
      .first (.notifyOne (.client client) .worker),
      .first (.client client), .first (.client client),
      .first (.client flusher), .first (.client flusher),
      .first .worker, .first (.advance .worker), .first (.advance .worker),
      .first .worker, .first .worker,
      .second (.advance (.outsider 0)),
      .second (.write (.iteration 0)
        (buildEntry "net" .warn "kept" false ⟨0, ⟨0, 1, 1, false, 0, 0⟩⟩)
        ⟨1, 0, 0, 1, 0, 70⟩),
      .second (.pass 5)],
    List.replicate 14 (.second (.advance (.outsider 0))),
    List.replicate 14 (.second (.advance (.iteration 0))),
    [.both (.write 0) (.advance (.iteration 0)),
      .first .worker, .first .worker, .first .worker,
      .first (.client flusher),
      .second (.flush (.client flusher)),
      .second (.advance (.client flusher)),
      .second (.advance (.client flusher)),
      .both (.client flusher) (.advance (.client flusher)),
      .first (.client flusher),
      .first .worker, .first .worker, .first (.advance .worker),
      .first (.advance .worker)]]

/-- A logger whose only sink is the file sink. -/
abbrev narrowSystem (Thread : Type) [DecidableEq Thread] :
    Machine (State Thread) (Event Thread) (Obs Thread) :=
  system Thread Async.narrow fun _ => true

/-- The schedule is followed for ever; after its end nothing happens. -/
private def atOnce
    (client flusher : Thread) :
    Execution (narrowSystem Thread) :=
  replay (narrowSystem Thread) ((callsAtOnce client flusher)[·]?)
    (narrowSystem Thread).init

/-- Where the schedule has ended. -/
private theorem atOnce_ended :
    ∀ position,
      (callsAtOnce (0 : Fin 2) 1).length ≤ position →
      (callsAtOnce (0 : Fin 2) 1)[position]? = none :=
  fun _ => List.getElem?_eq_none

/-- The event is a step of the buffer of the stream. -/
private def passes : Event Thread → Bool
  | .second (.pass _) => true
  | _ => false

omit [DecidableEq Thread] in
/-- A step of the buffer passes some characters on. -/
private theorem exists_pass
    (isPass : passes event = true) :
    ∃ count, event = .second (.pass count) := by
  unfold passes at isPass
  split at isPass
  · exact ⟨_, rfl⟩
  · cases isPass

/-- After the three calls everything is a step of somebody or of the buffer. -/
private theorem atOnce_quiet : QuietFrom (atOnce (0 : Fin 2) 1) 3 := by
  intro position event later happens
  have scheduled := replay_event happens
  have quiet :
      ∀ event ∈ (callsAtOnce (0 : Fin 2) 1).drop 3,
        (owner? event).isSome = true ∨ passes event = true := by
    decide
  have isLater : event ∈ (callsAtOnce (0 : Fin 2) 1).drop 3 := by
    apply List.mem_of_getElem? (i := position - 3)
    rw [List.getElem?_drop, Nat.add_sub_cancel' later]
    exact scheduled
  rcases quiet event isLater with owned | isPass
  · exact Or.inl (Option.isSome_iff_ne_none.mp owned)
  · exact Or.inr (exists_pass isPass)

/-- What the schedule reaches the system reaches. -/
private theorem atOnce_reaches (position : Nat) :
    (narrowSystem (Fin 2)).Reaches
      ((atOnce (0 : Fin 2) 1).record position)
      ((atOnce (0 : Fin 2) 1).state position) :=
  (atOnce (0 : Fin 2) 1).reaches_record .init position

/-- There is one outsider only. -/
private theorem atOnce_outsidersBelow (position : Nat) :
    OutsidersBelow 1 ((atOnce (0 : Fin 2) 1).state position) := by
  refine OutsidersBelow.stays ?_ (fun _ _ => rfl) position position.zero_le
  intro position chosen number _ happens isCall
  have calls :
      ∀ event ∈ callsAtOnce (0 : Fin 2) 1,
        (outsider? event).all (decide <| · < 1) = true := by
    decide
  have few := calls chosen (List.mem_of_getElem? (replay_event happens))
  rw [isCall] at few
  exact of_decide_eq_true few

/-- At the end all calls have returned and the worker is asleep. -/
private theorem atOnce_resting :
    Async.Resting
        ((atOnce (0 : Fin 2) 1).state
          (callsAtOnce (0 : Fin 2) 1).length).1 ∧
      ∀ caller,
        ((atOnce (0 : Fin 2) 1).state
          (callsAtOnce (0 : Fin 2) 1).length).2.phase caller = .idle := by
  have feature :
      (let finish := (callsAtOnce (0 : Fin 2) 1).length
      let state := (atOnce (0 : Fin 2) 1).state finish
      decide
        (((∀ thread, state.1.phase thread = .idle) ∧
          (state.1.core.shared.mutex = none ∧
            state.1.drainedMutex = none) ∧
          .worker ∈ state.1.core.shared.notEmpty.waiters ∧
          state.1.core.shared.queue.stopped = false ∧
          state.1.core.shared.queue.data = [] ∧
          state.1.unsettled = [] ∧
          state.1.pending = 0) ∧
          state.1.stage = .ready ∧
          (∀ thread, state.2.phase (.client thread) = .idle) ∧
          state.2.phase (.outsider 0) = .idle)) = true := by
    decide +kernel
  obtain ⟨⟨idle, unlocked, asleep⟩, ready, clients, outsider⟩ :=
    of_decide_eq_true feature
  refine ⟨⟨fun thread => Or.inl (idle thread), unlocked, Or.inr asleep⟩, ?_⟩
  intro caller
  cases caller with
  | iteration position =>
      have fit : AllFit Async.narrow (fun _ => true) _ :=
        .of_reaches (reachesBy_of_system
          (atOnce_reaches (callsAtOnce (0 : Fin 2) 1).length))
      by_contra inside
      rcases (fit _).due_or_outsider inside with due | ⟨_, isOutsider⟩
      · simp [Due, Async.State.writing?, ready] at due
      · cases isOutsider
  | client thread =>
      exact clients thread
  | outsider number =>
      by_cases first : number = 0
      · rw [first]
        exact outsider
      · exact atOnce_outsidersBelow _ number (Nat.pos_of_ne_zero first)

/-- Everybody is treated fairly. -/
private theorem atOnce_fair (process : Process (Fin 2)) :
    (atOnce (0 : Fin 2) 1).WeaklyFair owner? process := by
  have inLogger :=
    reaches_logger (reachesBy_of_system
      (atOnce_reaches (callsAtOnce (0 : Fin 2) 1).length))
  exact replay_weaklyFair atOnce_ended
    (atRest_of_logger (atOnce_resting.1.atRest inLogger) atOnce_resting.2
      process)

/-- The last owed notification is not lost, and nobody calls `~Logger`. -/
private theorem atOnce_kept
    (position : Nat)
    (event : Event (Fin 2))
    (happens : (atOnce (0 : Fin 2) 1).event position = some event) :
    KeptAlive ((atOnce (0 : Fin 2) 1).state position) event := by
  have scheduled := replay_event happens
  have inside : position < (callsAtOnce (0 : Fin 2) 1).length :=
    (List.getElem?_eq_some_iff.mp scheduled).1
  have kept :
      ∀ position < (callsAtOnce (0 : Fin 2) 1).length,
        ((callsAtOnce (0 : Fin 2) 1)[position]?).all
          (fun event =>
            KeptAlive ((atOnce (0 : Fin 2) 1).state position) event) =
          true := by
    decide +kernel
  simpa [scheduled] using kept position inside

/-- After three calls at once everybody has come back. -/
theorem calls_return_from_shared_sink_of_calls_at_once :
    ∃ execution : Execution (narrowSystem (Fin 2)),
      (narrowSystem (Fin 2)).Reaches [] (execution.state 0) ∧
        QuietFrom execution 3 ∧
        (∀ process, execution.WeaklyFair owner? process) ∧
        ∃ finish, Async.Resting (execution.state finish).1 := by
  obtain ⟨finish, _, resting⟩ :=
    calls_return_from_shared_sink (by decide) (atOnce 0 1) .init
      atOnce_quiet atOnce_fair
  exact ⟨atOnce 0 1, .init, atOnce_quiet, atOnce_fair, finish,
    (resting finish le_rfl).1⟩

/-- The flusher sleeps, is notified and returns, and both records are whole. -/
theorem flushes_return_from_shared_sink_of_calls_at_once :
    ∃ execution : Execution (narrowSystem (Fin 2)),
      (narrowSystem (Fin 2)).ReachesBy KeptAlive [] (execution.state 0) ∧
        QuietFrom execution 3 ∧
        (∀ process, execution.WeaklyFair owner? process) ∧
        ∃ finish,
          Served Async.narrow (fun _ => true) (execution.record finish)
            (execution.state finish) := by
  obtain ⟨finish, _, served⟩ :=
    flushes_return_from_shared_sink (by decide) (atOnce 0 1) .init
      atOnce_kept atOnce_quiet atOnce_fair
  exact ⟨atOnce 0 1, .init, atOnce_quiet, atOnce_fair, finish,
    served finish le_rfl⟩

end ConcLogger.FileLogger
