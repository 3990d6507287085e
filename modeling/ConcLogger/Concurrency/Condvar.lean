import Mathlib.Data.Finset.Basic
import Mathlib.Logic.Function.Basic

namespace Concurrency

/-!
# Condition variables and wakeup coverage

A condition variable is the set of threads asleep on it.  `notifyAll` wakes
exactly the threads asleep at that moment, `notifyOne?` wakes one of them if
there is one, and `wake?` is a spurious wakeup.

A wakeup protocol has to keep one promise: while the awaited condition holds
and somebody is asleep, somebody still has to notify.  `Covered` states this
promise and the lemmas below are the rules by which a step keeps it.
-/

/-- A condition variable, represented by the threads asleep on it. -/
structure Condvar (Thread : Type) where
  waiters : Finset Thread
  deriving DecidableEq

namespace Condvar

variable {Thread : Type}

/-- Nobody is asleep. -/
def empty : Condvar Thread where
  waiters := ∅

/-- Wake every thread that is asleep. -/
def notifyAll (_condvar : Condvar Thread) : Condvar Thread :=
  empty

variable [DecidableEq Thread]

/-- The waiting half of `wait`: the thread is now asleep. -/
def sleep (condvar : Condvar Thread) (thread : Thread) : Condvar Thread where
  waiters := insert thread condvar.waiters

/-- Take one thread out of the sleepers. -/
def rouse (condvar : Condvar Thread) (thread : Thread) : Condvar Thread where
  waiters := condvar.waiters.erase thread

/--
Wake one sleeper, chosen by the scheduler.  Without sleepers the notification
has no effect; a thread that is not asleep cannot be chosen.
-/
def notifyOne?
    (condvar : Condvar Thread)
    (chosen : Thread) :
    Option (Condvar Thread) :=
  if condvar.waiters = ∅ then
    some condvar
  else if chosen ∈ condvar.waiters then
    some (condvar.rouse chosen)
  else
    none

/-- A spurious wakeup of a sleeping thread. -/
def wake?
    (condvar : Condvar Thread)
    (thread : Thread) :
    Option (Condvar Thread) :=
  if thread ∈ condvar.waiters then
    some (condvar.rouse thread)
  else
    none

omit [DecidableEq Thread] in
@[simp] theorem waiters_empty :
    (empty : Condvar Thread).waiters = ∅ :=
  rfl

omit [DecidableEq Thread] in
@[simp] theorem waiters_notifyAll
    (condvar : Condvar Thread) :
    condvar.notifyAll.waiters = ∅ :=
  rfl

@[simp] theorem mem_waiters_sleep
    {condvar : Condvar Thread}
    {thread query : Thread} :
    query ∈ (condvar.sleep thread).waiters ↔
      query = thread ∨ query ∈ condvar.waiters := by
  simp [sleep]

@[simp] theorem mem_waiters_rouse
    {condvar : Condvar Thread}
    {thread query : Thread} :
    query ∈ (condvar.rouse thread).waiters ↔
      query ≠ thread ∧ query ∈ condvar.waiters := by
  simp [rouse]

/-- A notification either finds nobody asleep or wakes the chosen sleeper. -/
theorem notifyOne?_cases
    {condvar next : Condvar Thread}
    {chosen : Thread}
    (notified : condvar.notifyOne? chosen = some next) :
    (condvar.waiters = ∅ ∧ next = condvar) ∨
      (chosen ∈ condvar.waiters ∧ next = condvar.rouse chosen) := by
  unfold notifyOne? at notified
  split at notified
  · rename_i nobody
    exact Or.inl ⟨nobody, (Option.some.inj notified).symm⟩
  · split at notified
    · rename_i asleep
      exact Or.inr ⟨asleep, (Option.some.inj notified).symm⟩
    · cases notified

/-- A notification can be sent at any time, whoever it reaches. -/
theorem exists_notifyOne?
    (condvar : Condvar Thread)
    (anybody : Thread) :
    ∃ chosen next, condvar.notifyOne? chosen = some next := by
  rcases condvar.waiters.eq_empty_or_nonempty with
    nobody | ⟨sleeper, asleep⟩
  · exact ⟨anybody, condvar, by simp [notifyOne?, nobody]⟩
  · refine ⟨sleeper, condvar.rouse sleeper, ?_⟩
    have somebody : condvar.waiters ≠ ∅ :=
      Finset.ne_empty_of_mem asleep
    simp [notifyOne?, somebody, asleep]

/-- A spurious wakeup wakes a thread that was asleep. -/
theorem wake?_eq_some
    {condvar next : Condvar Thread}
    {thread : Thread} :
    condvar.wake? thread = some next ↔
      thread ∈ condvar.waiters ∧ next = condvar.rouse thread := by
  unfold wake?
  split <;> simp_all [eq_comm]

/-- Waking one thread puts nobody to sleep. -/
theorem notifyOne?_subset
    {condvar next : Condvar Thread}
    {chosen : Thread}
    (notified : condvar.notifyOne? chosen = some next) :
    next.waiters ⊆ condvar.waiters := by
  rcases notifyOne?_cases notified with ⟨_, rfl⟩ | ⟨_, rfl⟩
  · exact Finset.Subset.refl _
  · intro query asleep
    exact (mem_waiters_rouse.mp asleep).2

omit [DecidableEq Thread] in
/--
While the awaited condition is `ready` and somebody is asleep, a notification
is `promised`.
-/
def Covered
    (condvar : Condvar Thread)
    (ready promised : Prop) : Prop :=
  ∀ thread ∈ condvar.waiters, ready → promised

namespace Covered

omit [DecidableEq Thread]

variable
  {condvar next : Condvar Thread}
  {ready promised ready' promised' : Prop}

/-- After waking everybody there is nobody left to cover. -/
theorem notifyAll
    (condvar : Condvar Thread) :
    condvar.notifyAll.Covered ready promised := by
  intro thread asleep
  simp at asleep

/-- Sleepers need no notification while the condition fails. -/
theorem of_not_ready
    (unready : ¬ ready) :
    condvar.Covered ready promised :=
  fun _ _ holds => (unready holds).elim

/-- A standing promise covers every sleeper. -/
theorem of_promised
    (standing : promised) :
    condvar.Covered ready promised :=
  fun _ _ _ => standing

/--
The frame rule: coverage survives a step that puts nobody to sleep, does not
make the condition hold and keeps the promise.
-/
theorem frame
    (covered : condvar.Covered ready promised)
    (sleepers : next.waiters ⊆ condvar.waiters)
    (condition : ready' → ready)
    (keeps : promised → promised') :
    next.Covered ready' promised' :=
  fun thread asleep holds =>
    keeps (covered thread (sleepers asleep) (condition holds))

end Covered

end Condvar

end Concurrency
