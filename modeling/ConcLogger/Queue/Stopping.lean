import ConcLogger.Queue.Conservation

namespace ConcLogger.Queue

open Concurrency

/-!
# The queue after a stop

Once `stopped_` is set no predicate is false any more, so nobody keeps
`mutex_` and nobody falls asleep.  What the queue still hands out is then a
matter of counting: every further swap but one needs an insertion before it.
-/

variable {Thread T : Type}

/-! ## The mutex of a stopped queue -/

/-- After the stop no thread keeps `mutex_` in order to fall asleep. -/
def FreeOnceStopped (state : State Thread T) : Prop :=
  state.queue.stopped = true → state.mutex = none

namespace FreeOnceStopped

variable [DecidableEq Thread] {state : State Thread T}

/-- Only a thread that sees a running queue keeps the mutex. -/
theorem step
    {event : Event Thread T}
    {emitted : List (Obs Thread T)}
    {next : State Thread T}
    (free : FreeOnceStopped state)
    (step : Step state event emitted next) :
    FreeOnceStopped next := by
  intro stopped
  cases step with
  | call thread operation =>
      cases operation <;> exact free stopped
  | block thread item deciding isFree full running
  | drainBlock thread out draining isFree nothing running =>
      have isStopped : state.queue.stopped = true := stopped
      rw [running] at isStopped
      cases isStopped
  | sleepNotFull | sleepNotEmpty =>
      rfl
  | stop thread stopping isFree =>
      exact isFree
  | _ =>
      exact free stopped

/-- In every reachable state the mutex of a stopped queue is free. -/
theorem of_reaches
    {capacity : Nat}
    {allowed : State Thread T → Event Thread T → Prop}
    {observed : List (Obs Thread T)}
    (reached :
      (machine Thread T capacity).ReachesBy allowed observed state) :
    FreeOnceStopped state :=
  reached.invariant
    (fun _ state => FreeOnceStopped state)
    (fun _ => rfl)
    (fun _ free _ taken => free.step (Step.of_step? taken))

end FreeOnceStopped

section Steps

variable
  [DecidableEq Thread]
  {state next : State Thread T}
  {event : Event Thread T}
  {emitted : List (Obs Thread T)}

/-- Nobody falls asleep on `not_empty_` after the stop. -/
theorem Step.sleepers_of_stopped
    (step : Step state event emitted next)
    (sound : Sound state)
    (stopped : state.queue.stopped = true) :
    next.notEmpty.waiters ⊆ state.notEmpty.waiters := by
  cases step with
  | call thread operation =>
      cases operation <;> exact Finset.Subset.refl _
  | sleepNotEmpty thread out blocking =>
      have running := ((sound thread).drainBlocked out blocking).2
      rw [stopped] at running
      cases running
  | notifyOne thread chosen item undelivered notEmpty notifying notified =>
      exact Condvar.notifyOne?_subset notified
  | stopNotifyEmpty =>
      exact Finset.empty_subset _
  | wakeNotEmpty thread asleep =>
      exact Finset.erase_subset _ _
  | _ =>
      exact Finset.Subset.refl _

/-- The deque changes by insertions and swaps only. -/
theorem Step.data_eq
    (step : Step state event emitted next)
    (noInsertion : inserted emitted = [])
    (noSwap : batches emitted = []) :
    next.queue.data = state.queue.data := by
  cases step with
  | call thread operation =>
      cases operation <;> rfl
  | insert | evict =>
      simp [inserted] at noInsertion
  | swap =>
      simp [batches] at noSwap
  | _ =>
      rfl

/-! ## Swaps and insertions -/

/-- How many swaps can come before the next insertion. -/
def State.swapsReady (state : State Thread T) : Nat :=
  if state.queue.data = [] then 0 else 1

omit [DecidableEq Thread] in
/-- What is ready to be swapped depends on the deque. -/
private theorem State.swapsReady_congr
    (data : next.queue.data = state.queue.data) :
    next.swapsReady = state.swapsReady := by
  simp only [State.swapsReady, data]

omit [DecidableEq Thread] in
/-- The deque is not swapped twice without an insertion. -/
theorem State.swapsReady_le_one
    (state : State Thread T) :
    state.swapsReady ≤ 1 := by
  unfold State.swapsReady
  split <;> simp

/-- A swap empties the deque, so the next one waits for an insertion. -/
theorem Step.batches_le
    (step : Step state event emitted next)
    (blank : BlankOuts state) :
    (batches emitted).length + next.swapsReady ≤
      (inserted emitted).length + state.swapsReady := by
  cases step with
  | call thread operation =>
      have same :
          (state.begin thread operation).queue.data =
            state.queue.data := by
        cases operation <;> rfl
      rw [State.swapsReady_congr same]
      exact Nat.le_refl _
  | insert thread item =>
      have atMostOne :=
        (state.insert thread item 0 state.queue.data).swapsReady_le_one
      change 0 + _ ≤ 1 + _
      omega
  | evict thread item oldest rest =>
      have atMostOne :=
        (state.insert thread item 1 rest).swapsReady_le_one
      change 0 + _ ≤ 1 + _
      omega
  | swap thread out draining free something =>
      have nothing := blank.out_eq_nil draining
      simp [batches, inserted, State.swapsReady, nothing, something]
  | _ =>
      exact Nat.le_refl _

end Steps

/-! ## What is handed out after a given moment -/

section Later

variable
  [DecidableEq Thread]
  [DecidableEq T]
  {observed later : List (Obs Thread T)}
  {state final : State Thread T}

/--
When the deque is found empty, what has been handed out since some moment is
what was in the deque then or was inserted since, less what was evicted.
-/
theorem Conserved.mem_handed_since
    (before : Conserved observed state)
    (stampedBefore : Stamped observed state)
    (after : Conserved (observed ++ later) final)
    (stamped : Stamped (observed ++ later) final)
    (nothing : final.queue.data = [])
    (item : Item Thread T) :
    item ∈ handed later ↔
      (item ∈ state.queue.data ∨ item ∈ inserted later) ∧
        item ∉ evicted later := by
  have distinct := after.inserted_nodup stamped
  rw [inserted_append] at distinct
  have handedOnce := after.handed_data_nodup stamped
  rw [nothing, List.append_nil, handed_append] at handedOnce
  have queuedOnce := before.handed_data_nodup stampedBefore
  have sources := after.mem_inserted_iff item
  rw [nothing, inserted_append, handed_append, evicted_append] at sources
  simp only [List.mem_append, List.not_mem_nil, false_or] at sources
  have kept :
      item ∈ handed observed ++ handed later →
      item ∉ evicted observed ++ evicted later := by
    intro out gone
    rw [← evicted_append] at gone
    rw [← handed_append] at out
    exact (after.not_mem_of_evicted gone).1 out
  constructor
  · intro out
    have remains := kept (List.mem_append_right _ out)
    rw [List.mem_append, not_or] at remains
    refine ⟨?_, remains.2⟩
    rcases sources.mpr (Or.inl (Or.inr out)) with old | new
    · rcases (before.mem_inserted_iff item).mp old with
        earlier | queued | gone
      · exact (List.disjoint_of_nodup_append handedOnce earlier out).elim
      · exact Or.inl queued
      · exact (remains.1 gone).elim
    · exact Or.inr new
  · rintro ⟨queued | new, remains⟩
    · have entered : item ∈ inserted observed :=
        (before.mem_inserted_iff item).mpr (Or.inr (Or.inl queued))
      rcases sources.mp (Or.inl entered) with
        (earlier | out) | gone | gone
      · exact
          (List.disjoint_of_nodup_append queuedOnce earlier queued).elim
      · exact out
      · exact ((before.not_mem_of_evicted gone).2 queued).elim
      · exact (remains gone).elim
    · have fresh : item ∉ inserted observed := fun old =>
        List.disjoint_of_nodup_append distinct old new
      rcases sources.mp (Or.inr new) with
        (earlier | out) | gone | gone
      · exact (fresh ((before.mem_inserted_iff item).mpr
          (Or.inl earlier))).elim
      · exact out
      · exact (fresh (before.evictedInserted item gone)).elim
      · exact (remains gone).elim

end Later

end ConcLogger.Queue
