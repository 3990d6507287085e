import ConcLogger.DrainLoop.Delivery
import ConcLogger.DrainLoop.Stranding
import ConcLogger.Queue.Stopping

namespace ConcLogger.DrainLoop

open Concurrency

/-!
# The drain loop after a stop

Once `stopped_` is set the worker works off its batch and the deque and leaves.
`State.workLeft` bounds what it still has to do: its own steps lower the bound,
and the others raise it by insertions only.  The worker cannot be held up
either, except while it sleeps and a `stop()` has yet to notify it.
-/

variable {Client T : Type}

/-- What the first loop has to do in addition to the second. -/
def loopLeft (second : Bool) : Nat :=
  if second then 0 else 6

/-- What is left of a call of `drain` and of the batch that it hands out. -/
def drainLeft (perEntry : Nat) (asleep : Bool) :
    Queue.Phase (Party Client) T → Nat
  | .drainReturning false _ => 1
  | .drainReturning true out => perEntry * out.length + 8
  | .drainNotifying out => perEntry * out.length + 9
  | _ => if asleep then 3 else 2

/-- What is left of a call of `empty`. -/
def checkLeft : Queue.Phase (Party Client) T → Nat
  | .emptyReturning true => 1
  | .emptyReturning false => 4
  | _ => 5

/-- What the worker has to do before it leaves, at a given cost of an entry. -/
def State.workLeft
    [DecidableEq Client]
    (perEntry : Nat)
    (state : State Client T) : Nat :=
  (perEntry + 8) * state.shared.queue.data.length +
    match state.control with
    | .callDrain second =>
        loopLeft second + 3
    | .draining second =>
        loopLeft second +
          drainLeft perEntry
            (decide (.worker ∈ state.shared.notEmpty.waiters))
            (state.shared.phase .worker)
    | .entries second next =>
        loopLeft second + perEntry * (state.batch.length - next) + 7
    | .callEmpty =>
        6
    | .checking =>
        checkLeft (state.shared.phase .worker)
    | .finished _ =>
        0

section Steps

variable
  [DecidableEq Client]
  {state next : State Client T}
  {event : Event Client T}
  {emitted : List (Queue.Obs (Party Client) T)}

/-! ## The worker's own steps -/

omit [DecidableEq Client] in
/-- A worker outside `drain` is awake. -/
theorem Linked.awake_of_outside
    (linked : Linked state)
    (sound : Queue.Sound state.shared)
    (outside : state.control.member? ≠ some .drain) :
    .worker ∉ state.shared.notEmpty.waiters := by
  intro asleep
  obtain ⟨out, waiting⟩ := (sound .worker).asleepNotEmpty asleep
  apply outside
  rw [← linked.worker, waiting]
  rfl

omit [DecidableEq Client] in
/-- A worker inside `drain` is at its call of `drain`. -/
theorem Linked.control_of_drain
    (linked : Linked state)
    (inside : (state.shared.phase .worker).member? = some .drain) :
    ∃ second, state.control = .draining second := by
  rw [linked.worker] at inside
  cases control : state.control with
  | draining second =>
      exact ⟨second, rfl⟩
  | _ =>
      simp [control, Control.member?] at inside

omit [DecidableEq Client] in
/-- A worker inside `empty` is at its call of `empty`. -/
theorem Linked.control_of_empty
    (linked : Linked state)
    (inside : (state.shared.phase .worker).member? = some .empty) :
    state.control = .checking := by
  rw [linked.worker] at inside
  cases control : state.control with
  | checking =>
      rfl
  | _ =>
      simp [control, Control.member?] at inside

/-- Outside the queue the worker's step does a part of the work. -/
theorem Step.workLeft_lt_of_worker
    (perEntry : Nat)
    (linked : Linked state)
    (sound : Queue.Sound state.shared)
    (step : Step state .worker emitted next)
    (nothing : state.consumed .worker = []) :
    next.workLeft perEntry < state.workLeft perEntry := by
  cases step with
  | queue event inner emitted shared isInner taken =>
      cases isInner
  | callDrain second control =>
      have awake :=
        linked.awake_of_outside sound (by simp [control, Control.member?])
      simp [State.workLeft, control, drainLeft, awake]
  | handOut second out control returning =>
      simp [State.workLeft, control, returning, drainLeft]
      omega
  | giveUp second out control returning =>
      cases second <;>
        simp [State.workLeft, control, returning, drainLeft, loopLeft]
  | consume second position control more =>
      simp [State.consumed, control, more] at nothing
  | clear second position control done =>
      cases second with
      | true =>
          simp [State.workLeft, control, loopLeft]
      | false =>
          simp [State.workLeft, control, loopLeft]
          omega
  | callEmpty control =>
      simp [State.workLeft, control, checkLeft]
  | checked result control returning =>
      cases result <;>
        simp [State.workLeft, control, returning, checkLeft, loopLeft]

/-- Consuming an entry saves what an entry costs. -/
theorem Step.workLeft_of_consumed
    (perEntry : Nat)
    {item : Queue.Item (Party Client) T}
    (step : Step state .worker emitted next)
    (consumed : state.consumed .worker = [item]) :
    next.workLeft perEntry + perEntry = state.workLeft perEntry := by
  cases step with
  | queue event inner emitted shared isInner taken =>
      cases isInner
  | consume second position control more =>
      have remaining :
          state.batch.length - position =
            state.batch.length - (position + 1) + 1 := by
        omega
      simp only [State.workLeft, control]
      rw [remaining, Nat.mul_succ]
      omega
  | clear second position control done =>
      simp [State.consumed, control, done] at consumed
  | callDrain second control | handOut second out control
  | giveUp second out control | callEmpty control
  | checked result control =>
      simp [State.consumed, control] at consumed

omit [DecidableEq Client] in
/-- The worker calls neither `push` nor `stop`. -/
theorem Linked.worker_outside
    (linked : Linked state) :
    (state.shared.phase .worker).member? ≠ some .push ∧
      (state.shared.phase .worker).member? ≠ some .stop := by
  constructor <;>
    intro member
  · obtain ⟨id, isClient⟩ := linked.exists_client (Or.inl member)
    cases isClient
  · obtain ⟨id, isClient⟩ := linked.exists_client (Or.inr member)
    cases isClient

/-- Before the swap a call of `drain` has two steps left. -/
private theorem State.workLeft_of_draining
    (perEntry : Nat)
    (linked : Linked state)
    (sound : Queue.Sound state.shared)
    {out : List (Queue.Item (Party Client) T)}
    (draining : state.shared.Draining .worker out) :
    ∃ second,
      state.control = .draining second ∧
        state.workLeft perEntry =
          (perEntry + 8) * state.shared.queue.data.length +
            (loopLeft second + 2) := by
  have awake := (sound.draining_awake draining).2
  obtain ⟨second, control⟩ :=
    linked.control_of_drain draining.inside_drain
  have twoSteps :
      drainLeft perEntry false (state.shared.phase .worker) = 2 := by
    rcases draining with phase | ⟨phase, _⟩ <;>
      simp [phase, drainLeft]
  refine ⟨second, control, ?_⟩
  simp [State.workLeft, control, awake, twoSteps]

/-- Inside the queue of a stopped logger the worker does not turn back. -/
theorem Step.workLeft_lt_of_advance
    (perEntry : Nat)
    (linked : Linked state)
    (sound : Queue.Sound state.shared)
    (stopped : state.shared.queue.stopped = true)
    (step : Step state (.advance .worker) emitted next) :
    next.workLeft perEntry < state.workLeft perEntry := by
  obtain ⟨outsidePush, outsideStop⟩ := linked.worker_outside
  cases step with
  | queue event inner emitted shared isInner taken =>
      cases isInner
      have inside := Queue.Step.of_step? taken
      cases inside with
      | refuse thread item deciding | block thread item deciding
      | undefined thread item deciding | insert thread item deciding =>
          exact (outsidePush deciding.inside_push).elim
      | evict thread item oldest rest phase
      | sleepNotFull thread item phase =>
          simp [phase, Queue.Phase.member?] at outsidePush
      | stop thread phase | stopNotifyEmpty thread phase
      | stopNotifyFull thread phase =>
          simp [phase, Queue.Phase.member?] at outsideStop
      | drainBlock thread out draining free nothing running =>
          rw [stopped] at running
          cases running
      | sleepNotEmpty thread out blocking =>
          have running := ((sound .worker).drainBlocked out blocking).2
          rw [stopped] at running
          cases running
      | exhaust thread out draining free nothing =>
          obtain ⟨second, control, before⟩ :=
            State.workLeft_of_draining perEntry linked sound draining
          rw [before]
          simp [State.workLeft, control, drainLeft]
      | swap thread out draining free something =>
          obtain ⟨second, control, before⟩ :=
            State.workLeft_of_draining perEntry linked sound draining
          have blank := linked.blank.out_eq_nil draining
          have filled := List.length_pos_iff.mpr something
          rw [before]
          simp [State.workLeft, control, drainLeft, blank, Nat.add_mul]
          omega
      | drainNotify thread out phase =>
          obtain ⟨second, control⟩ := linked.control_of_drain (by
            simp [phase, Queue.Phase.member?])
          simp [State.workLeft, control, phase, drainLeft]
      | empty thread phase =>
          have control := linked.control_of_empty (by
            simp [phase, Queue.Phase.member?])
          cases state.shared.queue.empty <;>
            simp [State.workLeft, control, phase, checkLeft]

/-! ## The steps of the others -/

/-- The work left depends on the deque, on the worker and on its sleep. -/
private theorem State.workLeft_frame
    (next : State Client T)
    (perEntry : Nat)
    (linked : Linked state)
    (sound : Queue.Sound state.shared)
    (data : next.shared.queue.data = state.shared.queue.data)
    (control : next.control = state.control)
    (batch : next.batch = state.batch)
    (phase : next.shared.phase .worker = state.shared.phase .worker)
    (sleepers :
      next.shared.notEmpty.waiters ⊆ state.shared.notEmpty.waiters) :
    next.workLeft perEntry < state.workLeft perEntry ∨
      (next.workLeft perEntry = state.workLeft perEntry ∧
        (.worker ∈ next.shared.notEmpty.waiters ↔
          .worker ∈ state.shared.notEmpty.waiters)) := by
  by_cases asleep : .worker ∈ state.shared.notEmpty.waiters
  · by_cases still : .worker ∈ next.shared.notEmpty.waiters
    · right
      simp [State.workLeft, data, control, batch, phase, asleep, still]
    · left
      obtain ⟨out, waiting⟩ := (sound .worker).asleepNotEmpty asleep
      obtain ⟨second, isDraining⟩ := linked.control_of_drain (by
        simp [waiting, Queue.Phase.member?])
      simp [State.workLeft, data, control, isDraining, phase, waiting,
        drainLeft, asleep, still]
  · right
    have awake : .worker ∉ next.shared.notEmpty.waiters :=
      fun still => asleep (sleepers still)
    simp [State.workLeft, data, control, batch, phase, asleep, awake]

/-- Nobody swaps the deque but the worker, and it only inside `drain`. -/
private theorem no_swap
    (linked : Linked state)
    {inner : Queue.Event (Party Client) T}
    {shared : Queue.State (Party Client) T}
    (inside : Queue.Step state.shared inner emitted shared)
    (elsewhere :
      inner = .advance .worker →
      (state.shared.phase .worker).member? ≠ some .drain) :
    Queue.batches emitted = [] := by
  cases inside with
  | swap thread out draining =>
      have isWorker := linked.eq_worker_of_draining draining
      subst isWorker
      exact (elsewhere rfl draining.inside_drain).elim
  | _ =>
      rfl

/-! ## Who brings the worker forward -/

/--
The worker helps itself while it is awake; while it sleeps, a `stop()` helps
that has yet to notify it.
-/
def State.Helps (state : State Client T) : Party Client → Prop
  | .worker =>
      .worker ∉ state.shared.notEmpty.waiters
  | .client id =>
      .worker ∈ state.shared.notEmpty.waiters ∧
        state.shared.phase (.client id) = .stopNotifyingEmpty

omit [DecidableEq Client] in
/-- After the stop somebody helps the worker. -/
theorem State.exists_helps
    (linked : Linked state)
    (covered : Queue.StopCovered state.shared)
    (stopped : state.shared.queue.stopped = true) :
    ∃ party, state.Helps party := by
  by_cases asleep : .worker ∈ state.shared.notEmpty.waiters
  · obtain ⟨party, notifying⟩ := covered .worker asleep stopped
    have member :
        (state.shared.phase party).member? = some .stop := by
      rw [notifying]
      rfl
    obtain ⟨id, rfl⟩ := linked.exists_client (Or.inr member)
    exact ⟨.client id, asleep, notifying⟩
  · exact ⟨.worker, asleep⟩

/-- A `stop()` that has yet to notify `not_empty_` does not leave it asleep. -/
private theorem Step.not_owner_of_asleep
    {id : Client}
    (step : Step state event emitted next)
    (notifying :
      state.shared.phase (.client id) = .stopNotifyingEmpty)
    (still : .worker ∈ next.shared.notEmpty.waiters) :
    event.party? ≠ some (.client id) := by
  intro own
  cases step with
  | queue event inner emitted shared isInner taken =>
      cases event with
      | push | stop | ret | notifyOne =>
          cases own
          cases isInner
          simp [Queue.State.step?, Queue.State.ret?,
            Queue.State.notifyOne?, notifying] at taken
      | advance party =>
          cases own
          cases isInner
          simp only [Queue.State.step?, Queue.State.advance?, notifying,
            Option.some.injEq, Prod.mk.injEq] at taken
          obtain ⟨rfl, _⟩ := taken
          simp at still
      | wake | worker =>
          cases own
  | _ =>
      cases own

/--
A step of another party that inserts nothing lowers the work left, or leaves
it and the helper as they are and is not the helper's.
-/
private theorem Step.helps_of_other
    (perEntry : Nat)
    (linked : Linked state)
    (sound : Queue.Sound state.shared)
    (stopped : state.shared.queue.stopped = true)
    (step : Step state event emitted next)
    (other : event.party? ≠ some .worker)
    (quiet : Queue.inserted emitted = [])
    {party : Party Client}
    (helps : state.Helps party) :
    next.workLeft perEntry < state.workLeft perEntry ∨
      (next.workLeft perEntry = state.workLeft perEntry ∧
        next.Helps party ∧
        event.party? ≠ some party) := by
  have phase := step.phase_of_other other
  have unnotified
      {id : Client}
      (notifying :
        state.shared.phase (.client id) = .stopNotifyingEmpty)
      (still : .worker ∈ next.shared.notEmpty.waiters) :
      next.shared.phase (.client id) = .stopNotifyingEmpty ∧
        event.party? ≠ some (.client id) := by
    have notOwner := step.not_owner_of_asleep notifying still
    exact ⟨(step.phase_of_other notOwner).trans notifying, notOwner⟩
  cases step with
  | queue event inner emitted shared isInner taken =>
      have inside := Queue.Step.of_step? taken
      have noSwap : Queue.batches emitted = [] := by
        apply no_swap linked inside
        rintro rfl
        cases event <;> cases isInner
        exact (other rfl).elim
      rcases State.workLeft_frame { state with shared := shared }
          perEntry linked sound (inside.data_eq quiet noSwap)
          rfl rfl phase (inside.sleepers_of_stopped sound stopped) with
        less | ⟨same, asleep⟩
      · exact Or.inl less
      · refine Or.inr ⟨same, ?_⟩
        cases party with
        | worker =>
            exact ⟨mt asleep.mp helps, other⟩
        | client id =>
            have still := asleep.mpr helps.1
            obtain ⟨notifying, notOwner⟩ := unnotified helps.2 still
            exact ⟨⟨still, notifying⟩, notOwner⟩
  | _ =>
      exact (other rfl).elim

/-- A step that inserts nothing brings the worker forward or keeps its helper. -/
theorem Step.helps_or_less
    (perEntry : Nat)
    (linked : Linked state)
    (sound : Queue.Sound state.shared)
    (stopped : state.shared.queue.stopped = true)
    (step : Step state event emitted next)
    (inQueue : event ≠ .worker)
    (quiet : Queue.inserted emitted = [])
    {party : Party Client}
    (helps : state.Helps party) :
    next.workLeft perEntry < state.workLeft perEntry ∨
      (next.workLeft perEntry = state.workLeft perEntry ∧
        next.Helps party ∧
        event.party? ≠ some party) := by
  by_cases own : event.party? = some .worker
  · left
    cases event with
    | worker =>
        exact (inQueue rfl).elim
    | advance mover =>
        cases own
        exact step.workLeft_lt_of_advance perEntry linked sound stopped
    | notifyOne mover chosen =>
        cases own
        cases step with
        | queue event inner emitted shared isInner taken =>
            cases isInner
            cases Queue.Step.of_step? taken with
            | notifyOne _ _ item undelivered notEmpty notifying =>
                refine (linked.worker_outside.1 ?_).elim
                rw [notifying]
                rfl
    | push | stop | ret | wake =>
        cases own
  · exact step.helps_of_other perEntry linked sound stopped own
      quiet helps

/-- An awake worker that has not finished can take a step. -/
theorem State.worker_can_step
    (linked : Linked state)
    (free : state.shared.mutex = none)
    (awake : .worker ∉ state.shared.notEmpty.waiters)
    (unfinished : ∀ broke, state.control ≠ .finished broke) :
    (state.step? .worker).isSome = true ∨
      (state.step? (.advance .worker)).isSome = true := by
  have member := linked.worker
  cases control : state.control with
  | callDrain second | callEmpty =>
      left
      rw [control] at member
      have idle := Queue.Phase.eq_idle_of_member? member
      simp [State.step?, Event.shared?, State.worker?, control,
        State.within, Queue.State.step?, idle]
  | draining second =>
      rw [control] at member
      cases phase : state.shared.phase .worker with
      | drainReturning result out =>
          left
          cases result <;>
            simp [State.step?, Event.shared?, State.worker?, control,
              phase, State.within, Queue.State.step?, Queue.State.ret?]
      | drain | drainBlocking | drainWaiting | drainNotifying =>
          right
          simp [State.step?, Event.shared?, State.within,
            Queue.State.step?, Queue.State.advance?, phase, free, awake]
      | _ =>
          simp [phase, Queue.Phase.member?, Control.member?] at member
  | entries second position =>
      left
      by_cases more : position < state.batch.length <;>
        simp [State.step?, Event.shared?, State.worker?, control, more]
  | checking =>
      rw [control] at member
      cases phase : state.shared.phase .worker with
      | emptyReturning result =>
          left
          simp [State.step?, Event.shared?, State.worker?, control,
            phase, State.within, Queue.State.step?, Queue.State.ret?]
      | empty =>
          right
          simp [State.step?, Event.shared?, State.within,
            Queue.State.step?, Queue.State.advance?, phase, free]
      | _ =>
          simp [phase, Queue.Phase.member?, Control.member?] at member
  | finished broke =>
      exact (unfinished broke control).elim

/-! ## What holds from the stop on -/

/-- A stopped queue stays stopped, whoever moves. -/
theorem Step.stopped_mono
    (step : Step state event emitted next)
    (stopped : state.shared.queue.stopped = true) :
    next.shared.queue.stopped = true := by
  cases step with
  | queue event inner emitted shared isInner taken =>
      exact (Queue.Step.of_step? taken).stopped_mono stopped
  | _ =>
      exact stopped

/-- After the stop nobody falls asleep on `not_empty_`. -/
theorem Step.sleepers_of_stopped
    (step : Step state event emitted next)
    (sound : Queue.Sound state.shared)
    (stopped : state.shared.queue.stopped = true) :
    next.shared.notEmpty.waiters ⊆ state.shared.notEmpty.waiters := by
  cases step with
  | queue event inner emitted shared isInner taken =>
      exact (Queue.Step.of_step? taken).sleepers_of_stopped sound stopped
  | _ =>
      exact Finset.Subset.refl _

/-- Every further swap but one needs an insertion before it. -/
theorem Step.batches_le
    (linked : Linked state)
    (step : Step state event emitted next) :
    (Queue.batches emitted).length + next.shared.swapsReady ≤
      (Queue.inserted emitted).length + state.shared.swapsReady := by
  cases step with
  | queue event inner emitted shared isInner taken =>
      exact (Queue.Step.of_step? taken).batches_le linked.blank
  | _ =>
      exact Nat.le_refl _

/-! ## The last check -/

/-- After the last check the worker only leaves. -/
theorem Step.after_lastCheck
    (linked : Linked state)
    (step : Step state event emitted next)
    (done : state.lastCheckDone = true) :
    next.lastCheckDone = true ∧ Queue.batches emitted = [] := by
  have unmoved (other : event.party? ≠ some .worker) :
      next.shared.phase .worker = state.shared.phase .worker :=
    step.phase_of_other other
  rw [State.lastCheckDone_iff] at done ⊢
  rcases done with ⟨broke, finished⟩ | ⟨checking, returning⟩
  · refine ⟨Or.inl ⟨broke, step.control_of_finished finished⟩, ?_⟩
    cases step with
    | queue event inner emitted shared isInner taken =>
        refine no_swap linked (Queue.Step.of_step? taken) fun _ => ?_
        simp [linked.worker, finished, Control.member?]
    | _ =>
        rfl
  · cases step with
    | queue event inner emitted shared isInner taken =>
        have inside := Queue.Step.of_step? taken
        have noSwap : Queue.batches emitted = [] :=
          no_swap linked inside fun _ => by
            simp [linked.worker, checking, Control.member?]
        have phase :
            shared.phase .worker = state.shared.phase .worker := by
          apply unmoved
          intro own
          cases event with
          | advance party | notifyOne party chosen =>
              cases isInner
              cases own
              simp [Queue.State.step?, Queue.State.advance?,
                Queue.State.notifyOne?, returning] at taken
          | worker =>
              cases isInner
          | push | stop | ret | wake =>
              cases own
        exact ⟨Or.inr ⟨checking, phase.trans returning⟩, noSwap⟩
    | checked result control returned =>
        rw [returned] at returning
        cases returning
        exact ⟨Or.inl ⟨false, rfl⟩, rfl⟩
    | callDrain second control | handOut second out control
    | giveUp second out control | consume second position control
    | clear second position control | callEmpty control =>
        rw [checking] at control
        cases control

/-- The critical section of `stop` comes before the worker's last check. -/
theorem Step.lastCheck_after_stop
    (supplied : Supplied state)
    (second : SecondStopped state)
    (running : state.shared.queue.stopped = false)
    (step : Step state event emitted next) :
    next.lastCheckDone = false := by
  have first : ¬ state.control.Second := by
    intro isSecond
    rw [second isSecond] at running
    cases running
  have before : state.lastCheckDone = false := by
    rw [← Bool.not_eq_true]
    exact fun done => first (second_of_lastCheckDone done)
  rw [← Bool.not_eq_true]
  intro done
  have atCheck := (step.lastCheck supplied before done).1.control
  rw [atCheck] at first
  exact first trivial

end Steps

end ConcLogger.DrainLoop
