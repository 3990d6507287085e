import ConcLogger.DrainLoop.Invariant

namespace ConcLogger.DrainLoop

open Concurrency

/-!
# Items that nobody will hand out

`push` looks at `stopped_` only after it has waited for room.  A push that
finds room inserts, also when the worker has already made its last check of
the deque, and reports 0 for an item that is never handed out.  Runs without
such a late push strand nothing.
-/

variable {Client T : Type}

/-- The worker has left, or is leaving, on finding the deque empty. -/
def State.lastCheckDone (state : State Client T) : Bool :=
  match state.control, state.shared.phase .worker with
  | .finished _, _ => true
  | .checking, .emptyReturning result => result
  | _, _ => false

/-- The event is the first critical section of a `push`. -/
def State.entersPush (state : State Client T) : Event Client T → Bool
  | .advance party =>
      match state.shared.phase party with
      | .push _ _ => true
      | _ => false
  | _ => false

/-- No `push` begins its first critical section after the worker's last check. -/
def BeforeLastCheck
    (state : State Client T)
    (event : Event Client T) : Prop :=
  state.lastCheckDone = true →
  state.entersPush event = false

instance decidableBeforeLastCheck
    (state : State Client T)
    (event : Event Client T) :
    Decidable (BeforeLastCheck state event) :=
  inferInstanceAs
    (Decidable
      (state.lastCheckDone = true → state.entersPush event = false))

/--
Once the worker has finished, the deque is empty and every item whose push
returned 0 was handed out or evicted.
-/
def NothingStranded
    (observed : List (Queue.Obs (Party Client) T))
    (state : State Client T) : Prop :=
  (∃ broke, state.control = .finished broke) →
    state.shared.queue.data = [] ∧
      ∀ item,
        .returned item 0 ∈ observed →
        item ∉ Queue.evicted observed →
        ∃ batch ∈ Queue.batches observed, item ∈ batch

/-- The critical section of `empty()` that lets the worker leave. -/
structure LastCheck (state next : State Client T) : Prop where
  control : state.control = .checking
  asked : state.shared.phase .worker = .empty
  nothing : state.shared.queue.data = []
  answered : next.shared.phase .worker = .emptyReturning true

/-- The deque stays empty after the worker's last check. -/
def Drained (state : State Client T) : Prop :=
  state.lastCheckDone = true →
  state.shared.queue.data = []

section Steps

variable
  [DecidableEq Client]
  {state next : State Client T}
  {event : Event Client T}
  {emitted : List (Queue.Obs (Party Client) T)}

omit [DecidableEq Client] in
/-- After the last check the worker has finished or is about to finish. -/
theorem State.lastCheckDone_iff :
    state.lastCheckDone = true ↔
      (∃ broke, state.control = .finished broke) ∨
        (state.control = .checking ∧
          state.shared.phase .worker = .emptyReturning true) := by
  constructor
  · intro done
    unfold State.lastCheckDone at done
    split at done
    · rename_i broke control
      exact Or.inl ⟨broke, control⟩
    · rename_i result control returning
      subst done
      exact Or.inr ⟨control, returning⟩
    · cases done
  · rintro (⟨broke, control⟩ | ⟨control, returning⟩)
    · simp [State.lastCheckDone, control]
    · simp [State.lastCheckDone, control, returning]

omit [DecidableEq Client] in
/-- After the last check the worker is in its second loop. -/
theorem second_of_lastCheckDone
    (done : state.lastCheckDone = true) :
    state.control.Second := by
  rcases State.lastCheckDone_iff.mp done with
    ⟨broke, control⟩ | ⟨control, _⟩
  · rw [control]
    trivial
  · rw [control]
    trivial

/-- An allowed step of the queue inserts nothing after the last check. -/
private theorem data_eq_nil_of_done
    (drained : Drained state)
    (stopped : SecondStopped state)
    (permitted : BeforeLastCheck state event)
    (done : state.lastCheckDone = true)
    {inner : Queue.Event (Party Client) T}
    {shared : Queue.State (Party Client) T}
    (isInner : event.shared? = some inner)
    (inside : Queue.Step state.shared inner emitted shared) :
    shared.queue.data = [] := by
  have nothing := drained done
  cases inside with
  | call thread operation =>
      cases operation <;> exact nothing
  | insert thread item deciding free room running =>
      rcases deciding with ⟨policy, phase⟩ | ⟨phase, _⟩
      · -- A push in its first critical section is what is ruled out.
        have enters : state.entersPush event = true := by
          cases event <;> cases isInner
          simp [State.entersPush, phase]
        rw [permitted done] at enters
        cases enters
      · -- A push that waited for room finds the queue stopped.
        have running := running phase
        rw [stopped (second_of_lastCheckDone done)] at running
        cases running
  | evict thread item oldest rest phase free contents =>
      rw [nothing] at contents
      cases contents
  | swap thread out draining free something =>
      exact (something nothing).elim
  | _ =>
      exact nothing

/-- The last check is a check that finds the deque empty. -/
theorem Step.lastCheck
    (supplied : Supplied state)
    (step : Step state event emitted next)
    (before : state.lastCheckDone = false)
    (done : next.lastCheckDone = true) :
    LastCheck state next ∧
      next.shared.queue.data = [] ∧
      emitted = [] := by
  rw [← Bool.not_eq_true, State.lastCheckDone_iff, not_or] at before
  rw [State.lastCheckDone_iff] at done
  cases step with
  | queue event inner emitted shared isInner taken =>
      have inside := Queue.Step.of_step? taken
      rcases done with finished | ⟨checking, returning⟩
      · exact (before.1 finished).elim
      · obtain ⟨asked, answer, same, silent⟩ :=
          (inside.emptyReturning_cause returning).resolve_left
            fun earlier => before.2 ⟨checking, earlier⟩
        have nothing : state.shared.queue.data = [] := by
          simpa [BoundedQueue.empty] using answer.symm
        exact ⟨⟨checking, asked, nothing, returning⟩,
          by rw [← nothing, ← same], silent⟩
  | giveUp second out control returning =>
      cases second with
      | true =>
          have handed := supplied.draining control
          simp [returning] at handed
      | false =>
          simp at done
  | clear second position control =>
      cases second <;> simp at done
  | checked result control returning =>
      cases result with
      | true =>
          exact (before.2 ⟨control, returning⟩).elim
      | false =>
          simp at done
  | consume | callDrain | handOut | callEmpty =>
      simp at done

/-- Every allowed step keeps the deque empty after the last check. -/
theorem Drained.step
    (drained : Drained state)
    (stopped : SecondStopped state)
    (supplied : Supplied state)
    (permitted : BeforeLastCheck state event)
    (step : Step state event emitted next) :
    Drained next := by
  intro done
  by_cases before : state.lastCheckDone = true
  · cases step with
    | queue event inner emitted shared isInner taken =>
        exact data_eq_nil_of_done drained stopped permitted before
          isInner (Queue.Step.of_step? taken)
    | _ =>
        exact drained before
  · rw [Bool.not_eq_true] at before
    exact (step.lastCheck supplied before done).2.1

/-- A worker that has found the deque empty returns from `drain_loop` next. -/
theorem worker?_of_checked
    (control : state.control = .checking)
    (returning :
      state.shared.phase .worker = .emptyReturning true) :
    state.step? .worker =
      some
        ({ state with
            shared := state.shared.moveTo .worker .idle
            control := .finished false }, []) := by
  simp [State.step?, Event.shared?, State.worker?, control,
    returning, State.within, Queue.State.step?, Queue.State.ret?]

/-- A push that finds the deque empty inserts at once. -/
private theorem inserts_of_entersPush
    (positive : 0 < state.shared.queue.capacity)
    (nothing : state.shared.queue.data = [])
    (enters : state.entersPush event = true)
    (taken : state.step? event = some (next, emitted)) :
    next.shared.queue.data ≠ [] ∧
      next.control = state.control ∧
      (state.shared.phase .worker = .emptyReturning true →
        next.shared.phase .worker = .emptyReturning true) := by
  unfold State.entersPush at enters
  split at enters
  · rename_i event party
    split at enters
    · rename_i item policy phase
      have inserts :
          state.shared.queue.push item policy =
            state.shared.queue.pushBack item none 0 := by
        have room :
            ¬ state.shared.queue.capacity ≤
              state.shared.queue.data.length := by
          simpa [nothing] using Nat.pos_iff_ne_zero.mp positive
        simp [BoundedQueue.push, room]
      simp only [State.step?, Event.shared?, State.within,
        Queue.State.step?, Queue.State.advance?, phase, inserts,
        BoundedQueue.pushBack, Queue.State.pushed,
        Option.map_eq_some_iff, Option.ite_none_right_eq_some,
        Option.some.injEq] at taken
      obtain ⟨result, ⟨_, rfl⟩, shape⟩ := taken
      cases shape
      refine ⟨by simp, rfl, ?_⟩
      intro returning
      have different : Party.worker ≠ party := by
        rintro rfl
        rw [phase] at returning
        cases returning
      simpa [different] using returning
    · cases enters
  · cases enters

end Steps

section Reached

variable
  [DecidableEq Client]
  {capacity : Nat}
  {observed : List (Queue.Obs (Party Client) T)}
  {state : State Client T}

/-- Without late pushes the deque stays empty after the last check. -/
theorem Drained.of_reaches
    (reached :
      (machine Client T capacity).ReachesBy
        BeforeLastCheck observed state) :
    Drained state :=
  reached.invariant
    (fun _ state => Drained state)
    (fun _ => rfl)
    (fun before drained permitted taken =>
      drained.step (SecondStopped.of_reaches before)
        (Supplied.of_reaches before) permitted
        (Step.of_step? taken))

/-- What has been inserted is handed out once the deque is empty. -/
theorem handed_of_inserted
    [DecidableEq T]
    (reached :
      (Queue.machine (Party Client) T capacity).ReachesBy
        Queue.EmptyOut observed state.shared)
    (nothing : state.shared.queue.data = [])
    {item : Queue.Item (Party Client) T}
    (entered : item ∈ Queue.inserted observed)
    (kept : item ∉ Queue.evicted observed) :
    item ∈ Queue.handed observed := by
  have conserved := Queue.Conserved.of_reaches reached
  rcases (conserved.mem_inserted_iff item).mp entered with
    out | queued | gone
  · exact out
  · rw [nothing] at queued
    cases queued
  · exact (kept gone).elim

/--
In every run in which no push begins after the worker's last check, nothing
that was accepted is stranded.
-/
theorem nothing_stranded_before_last_check
    [DecidableEq T]
    (reached :
      (machine Client T capacity).ReachesBy
        BeforeLastCheck observed state) :
    NothingStranded observed state := by
  rintro ⟨broke, control⟩
  have nothing : state.shared.queue.data = [] :=
    Drained.of_reaches reached
      (by simp [State.lastCheckDone, control])
  refine ⟨nothing, ?_⟩
  intro item returned kept
  have inQueue := reaches_queue reached
  have reported := Queue.Reported.of_reaches inQueue
  have entered :=
    reported.inserted item (reported.returned item 0 returned)
  simpa [Queue.handed] using
    handed_of_inserted inQueue nothing entered kept

/--
The condition is exact: a late push that completes its critical section leaves
an item in the deque of a worker that has finished or finishes next.
-/
theorem late_push_strands
    {event : Event Client T}
    {next : State Client T}
    {emitted : List (Queue.Obs (Party Client) T)}
    (positive : 0 < capacity)
    (reached :
      (machine Client T capacity).ReachesBy
        BeforeLastCheck observed state)
    (late : ¬ BeforeLastCheck state event)
    (taken : state.step? event = some (next, emitted)) :
    next.shared.queue.data ≠ [] ∧
      ((∃ broke, next.control = .finished broke) ∨
        ∃ final,
          next.step? .worker = some (final, []) ∧
            final.control = .finished false ∧
            final.shared.queue = next.shared.queue) := by
  simp only [BeforeLastCheck, Classical.not_imp,
    Bool.not_eq_false] at late
  obtain ⟨done, enters⟩ := late
  have nothing := Drained.of_reaches reached done
  have sameCapacity :=
    Queue.capacity_of_reaches (reaches_queue reached)
  obtain ⟨inserted, sameControl, sameReturn⟩ :=
    inserts_of_entersPush (by rwa [sameCapacity]) nothing enters taken
  refine ⟨inserted, ?_⟩
  rcases State.lastCheckDone_iff.mp done with
    ⟨broke, control⟩ | ⟨control, returning⟩
  · exact Or.inl ⟨broke, by rw [sameControl, control]⟩
  · exact Or.inr
      ⟨_, worker?_of_checked (by rw [sameControl, control])
        (sameReturn returning), rfl, rfl⟩

end Reached

/--
A stop before any push: the worker finishes, then a push finds room, reports
that it dropped nothing, and its item is never handed out.
-/
theorem late_push_is_stranded :
    ∃ (observed : List (Queue.Obs (Party (Fin 2)) Nat))
      (state : State (Fin 2) Nat),
      (machine (Fin 2) Nat 1).Reaches observed state ∧
        ¬ NothingStranded observed state := by
  obtain ⟨observed, state, reached, feature⟩ :=
    (machine (Fin 2) Nat 1).exists_reaches
      [.stop 0, .advance (.client 0), .advance (.client 0),
        .advance (.client 0), .ret 0,
        .worker, .advance .worker, .worker,
        .worker, .advance .worker, .worker,
        .push 1 7 .block, .advance (.client 1),
        .notifyOne (.client 1) .worker, .ret 1]
      (fun observed state =>
        state.control == .finished false &&
          !state.shared.queue.data.isEmpty &&
          decide (.returned ⟨.client 1, 0, 7⟩ 0 ∈ observed))
      (by decide +kernel)
  refine ⟨observed, state, reached, ?_⟩
  simp only [Bool.and_eq_true, beq_iff_eq, Bool.not_eq_true',
    List.isEmpty_eq_false_iff] at feature
  intro stranded
  exact feature.1.2 (stranded ⟨false, feature.1.1⟩).1

/-- A run that the theorem covers: one item is pushed, handed out and consumed. -/
theorem nothing_stranded_before_last_check_of_one_item :
    ∃ (observed : List (Queue.Obs (Party (Fin 2)) Nat))
      (state : State (Fin 2) Nat),
      (machine (Fin 2) Nat 1).ReachesBy
          BeforeLastCheck observed state ∧
        state.control = .finished false ∧
        .returned ⟨.client 1, 0, 7⟩ 0 ∈ observed ∧
        NothingStranded observed state := by
  obtain ⟨observed, state, reached, feature⟩ :=
    (machine (Fin 2) Nat 1).exists_reachesBy BeforeLastCheck
      [.push 1 7 .block, .advance (.client 1),
        .notifyOne (.client 1) .worker, .ret 1,
        .stop 0, .advance (.client 0), .advance (.client 0),
        .advance (.client 0), .ret 0,
        .worker, .advance .worker, .advance .worker, .worker,
        .worker, .worker,
        .worker, .advance .worker, .worker,
        .worker, .advance .worker, .worker]
      (fun observed state =>
        state.control == .finished false &&
          decide (.returned ⟨.client 1, 0, 7⟩ 0 ∈ observed))
      (by decide +kernel)
  simp only [Bool.and_eq_true, beq_iff_eq,
    decide_eq_true_eq] at feature
  exact ⟨observed, state, reached, feature.1, feature.2,
    nothing_stranded_before_last_check reached⟩

end ConcLogger.DrainLoop
