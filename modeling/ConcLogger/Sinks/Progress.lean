import ConcLogger.Sinks.Files

namespace ConcLogger.Sinks.FileSink

open Concurrency

/-!
# Nobody gets stuck inside a file sink

Whoever holds `mutex_` can go on, and all that the others wait for is `mutex_`.
A call takes a bounded number of steps, since a record has few pieces.
-/

variable
  {Thread : Type}
  [DecidableEq Thread]
  {state next : State Thread}
  {emitted : List (Obs Thread)}
  {thread : Thread}

/-- The steps of a call that are still to come. -/
def Phase.left : Phase → Nat
  | .idle => 0
  | .locking entry tm => (pieces entry tm).length + 2
  | .inserting _ _ rest => rest.length + 1
  | .flushLocking => 3
  | .flushing => 2
  | .flushUnlocking => 1

/-- A record has fourteen pieces at most. -/
theorem length_pieces_le (entry : LogEntry) (tm : Tm) :
    (pieces entry tm).length ≤ 14 := by
  unfold pieces
  split <;> simp

/-- Every step inside a call brings its end nearer, and moves nobody else. -/
theorem Step.left_eq
    (step : Step state (.advance thread) emitted next) :
    next.phase = Function.update state.phase thread (next.phase thread) ∧
      (state.phase thread).left = (next.phase thread).left + 1 := by
  cases step with
  | lock thread entry tm phase | insert thread entry tm piece rest phase
  | unlock thread entry tm phase | flushLock thread phase
  | flushStream thread phase | flushUnlock thread phase =>
      simp [phase, Phase.left]

/-- What is possible depends on `mutex_` and on who is where. -/
theorem State.isSome_step?_congr
    (mutex : next.mutex = state.mutex)
    (phase : next.phase = state.phase)
    (event : Event Thread) :
    (next.step? event).isSome = (state.step? event).isSome := by
  cases event with
  | write thread entry tm | flush thread =>
      simp only [State.step?, phase]
      split <;> rfl
  | advance thread =>
      simp only [State.step?, State.advance?, State.lock?, phase, mutex]
      cases state.phase thread with
      | inserting entry tm rest =>
          cases rest <;> rfl
      | locking | flushLocking =>
          dsimp only
          split <;> rfl
      | _ =>
          rfl
  | pass count =>
      rfl

/-- All that a thread inside the sink may have to wait for is `mutex_`. -/
theorem State.mutex_ne_none_of_stuck
    (inside : state.phase thread ≠ .idle)
    (stuck : state.advance? thread = none) :
    state.mutex ≠ none := by
  unfold State.advance? at stuck
  cases phase : state.phase thread with
  | idle =>
      exact (inside phase).elim
  | locking entry tm | flushLocking =>
      intro free
      simp [phase, State.lock?, free] at stuck
  | inserting entry tm rest =>
      cases rest <;> simp [phase] at stuck
  | flushing | flushUnlocking =>
      simp [phase] at stuck

/-- Whoever holds `mutex_` can go on. -/
theorem State.advance?_ne_none_of_holds
    (holds : (state.phase thread).holds) :
    state.advance? thread ≠ none := by
  unfold State.advance?
  cases phase : state.phase thread with
  | inserting entry tm rest =>
      cases rest <;> simp
  | flushing | flushUnlocking =>
      simp
  | _ =>
      rw [phase] at holds
      exact holds.elim

/-- Where nobody inside the sink can go on, nobody is inside. -/
theorem MutexHeld.idle_of_stuck
    (held : MutexHeld state)
    (stuck : ∀ thread, state.advance? thread = none)
    (thread : Thread) :
    state.phase thread = .idle := by
  by_contra inside
  obtain ⟨holder, isHolder⟩ :=
    Option.ne_none_iff_exists'.mp
      (State.mutex_ne_none_of_stuck inside (stuck thread))
  exact State.advance?_ne_none_of_holds ((held holder).mpr isHolder)
    (stuck holder)

end ConcLogger.Sinks.FileSink
