import Mathlib.Algebra.BigOperators.Group.Finset.Basic
import Mathlib.Algebra.Order.BigOperators.Group.Finset
import Mathlib.Data.Fintype.BigOperators
import Mathlib.Logic.Function.Basic

namespace Concurrency

/-!
# Pointwise changes of a thread pool

The local state of every thread is a function of the thread, and a step
changes it at one thread only.  These lemmas say what such a change does to an
existential statement, to a universal statement and to a sum over all threads.
-/

variable {Thread Local : Type}

section Update

variable [DecidableEq Thread]

/--
A step of one thread keeps an existential statement about the pool when the
moving thread itself does not lose the property.
-/
theorem exists_update
    (property : Thread → Local → Prop)
    {locals : Thread → Local}
    {mover : Thread}
    {next : Local}
    (found : ∃ thread, property thread (locals thread))
    (keeps : property mover (locals mover) → property mover next) :
    ∃ thread,
      property thread (Function.update locals mover next thread) := by
  obtain ⟨thread, holds⟩ := found
  by_cases isMover : thread = mover
  · subst isMover
    exact ⟨thread, by simpa using keeps holds⟩
  · exact ⟨thread, by simpa [Function.update_of_ne isMover] using holds⟩

/-- The moving thread itself witnesses an existential statement. -/
theorem exists_update_self
    (property : Thread → Local → Prop)
    {locals : Thread → Local}
    {mover : Thread}
    {next : Local}
    (holds : property mover next) :
    ∃ thread,
      property thread (Function.update locals mover next thread) :=
  ⟨mover, by simpa using holds⟩

/-- A statement about every thread only has to be checked again at the mover. -/
theorem forall_update
    (property : Thread → Local → Prop)
    {locals : Thread → Local}
    {mover : Thread}
    {next : Local}
    (others :
      ∀ thread,
        thread ≠ mover →
        property thread (locals thread))
    (moved : property mover next) :
    ∀ thread,
      property thread (Function.update locals mover next thread) := by
  intro thread
  by_cases isMover : thread = mover
  · subst isMover
    simpa using moved
  · rw [Function.update_of_ne isMover]
    exact others thread isMover

end Update

section Sums

variable [Fintype Thread]

/-- A sum over all threads changes by what one thread contributes. -/
theorem sum_change
    (before after : Thread → Nat)
    (mover : Thread)
    (others : ∀ thread, thread ≠ mover → after thread = before thread) :
    (∑ thread, after thread) + before mover =
      (∑ thread, before thread) + after mover := by
  classical
  have rest :
      ∑ thread ∈ Finset.univ.erase mover, after thread =
        ∑ thread ∈ Finset.univ.erase mover, before thread :=
    Finset.sum_congr rfl fun thread member =>
      others thread (Finset.ne_of_mem_erase member)
  rw [← Finset.add_sum_erase _ after (Finset.mem_univ mover),
    ← Finset.add_sum_erase _ before (Finset.mem_univ mover), rest]
  omega

/-- A sum changes by what one thread contributes and what the others gain. -/
theorem sum_le_of_gain
    (before after gain : Thread → Nat)
    (mover : Thread)
    (others :
      ∀ thread, thread ≠ mover → after thread ≤ before thread + gain thread) :
    (∑ thread, after thread) + before mover ≤
      (∑ thread, before thread) + after mover + ∑ thread, gain thread := by
  classical
  have rest :
      ∑ thread ∈ Finset.univ.erase mover, after thread ≤
        ∑ thread ∈ Finset.univ.erase mover,
          (before thread + gain thread) :=
    Finset.sum_le_sum fun thread member =>
      others thread (Finset.ne_of_mem_erase member)
  rw [Finset.sum_add_distrib] at rest
  rw [← Finset.add_sum_erase _ after (Finset.mem_univ mover),
    ← Finset.add_sum_erase _ before (Finset.mem_univ mover),
    ← Finset.add_sum_erase _ gain (Finset.mem_univ mover)]
  omega

/-- A sum over all threads includes the part of each of them. -/
theorem le_sum
    (part : Thread → Nat)
    (thread : Thread) :
    part thread ≤ ∑ other, part other :=
  Finset.single_le_sum (f := part)
    (fun _ _ => Nat.zero_le _) (Finset.mem_univ thread)

/-- Counting threads is summing one for each of them. -/
theorem card_filter_eq_sum
    (counted : Thread → Bool) :
    (Finset.univ.filter fun thread => counted thread = true).card =
      ∑ thread, (counted thread).toNat := by
  rw [Finset.card_filter]
  refine Finset.sum_congr rfl ?_
  intro thread _
  cases counted thread <;> rfl

end Sums

end Concurrency
