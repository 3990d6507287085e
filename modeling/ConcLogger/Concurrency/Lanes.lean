import Mathlib.Data.List.Basic
import Mathlib.Data.List.Perm.Basic
import Mathlib.Data.Fintype.Defs
import Mathlib.Data.Finset.Dedup
import Mathlib.Logic.Function.Basic

namespace Concurrency

/-!
# Schedules and their lanes

A schedule lists steps of several threads in the order in which they take
effect.  The lane of a thread is what the thread itself contributes, in order;
an interleaving of given lanes is what a schedule with these lanes shows.
-/

variable {Thread Entry Shown : Type} [DecidableEq Thread]

/-- What one thread contributes to a schedule. -/
def lane
    (thread : Thread)
    (schedule : List (Thread × Entry)) :
    List Entry :=
  schedule.filterMap fun entry =>
    if entry.1 = thread then some entry.2 else none

section Lane

variable
  (thread : Thread)
  (first second : List (Thread × Entry))

@[simp] theorem lane_nil :
    lane thread ([] : List (Thread × Entry)) = [] :=
  rfl

@[simp] theorem lane_append :
    lane thread (first ++ second) =
      lane thread first ++ lane thread second :=
  List.filterMap_append

@[simp] theorem lane_singleton
    (caller : Thread)
    (entry : Entry) :
    lane thread [(caller, entry)] =
      if caller = thread then [entry] else [] := by
  by_cases same : caller = thread <;>
    simp [lane, same]

/-- Entries of one thread are in its lane and in no other. -/
@[simp] theorem lane_map_mk
    (caller : Thread)
    (entries : List Entry) :
    lane thread (entries.map (Prod.mk caller)) =
      if caller = thread then entries else [] := by
  by_cases same : caller = thread <;>
    simp [lane, List.filterMap_map, same]

end Lane

/-- Showing the entries of a schedule shows those of every lane. -/
theorem lane_map
    (shown : Entry → Shown)
    (thread : Thread)
    (schedule : List (Thread × Entry)) :
    lane thread (schedule.map (Prod.map id shown)) =
      (lane thread schedule).map shown := by
  simp only [lane, List.filterMap_map, List.map_filterMap]
  congr 1
  funext entry
  by_cases same : entry.1 = thread <;>
    simp [same]

/-- Selecting entries of a schedule selects in every lane. -/
theorem lane_filterMap
    (select : Entry → Option Shown)
    (thread : Thread)
    (schedule : List (Thread × Entry)) :
    lane thread
        (schedule.filterMap fun entry =>
          (select entry.2).map (Prod.mk entry.1)) =
      (lane thread schedule).filterMap select := by
  simp only [lane, List.filterMap_filterMap]
  congr 1
  funext entry
  by_cases same : entry.1 = thread <;>
    cases shown : select entry.2 <;>
    simp [same, shown]

/-- Threads that are given other names keep their lanes. -/
theorem lane_map_injective
    {Caller : Type}
    [DecidableEq Caller]
    {name : Thread → Caller}
    (distinct : Function.Injective name)
    (thread : Thread)
    (schedule : List (Thread × Entry)) :
    lane (name thread) (schedule.map (Prod.map name id)) =
      lane thread schedule := by
  simp only [lane, List.filterMap_map]
  congr 1
  funext entry
  simp [distinct.eq_iff]

omit [DecidableEq Thread] in
/-- A name that nobody has been given has an empty lane. -/
theorem lane_map_eq_nil
    {Caller : Type}
    [DecidableEq Caller]
    {name : Thread → Caller}
    {caller : Caller}
    (nobody : ∀ thread, name thread ≠ caller)
    (schedule : List (Thread × Entry)) :
    lane caller (schedule.map (Prod.map name id)) = [] := by
  simp [lane, nobody]

/-- An entry occurs in the lane of its thread as often as in the schedule. -/
private theorem count_lane
    [DecidableEq Entry]
    (thread : Thread)
    (entry : Entry)
    (schedule : List (Thread × Entry)) :
    (lane thread schedule).count entry =
      schedule.count (thread, entry) := by
  induction schedule with
  | nil =>
      rfl
  | cons first rest inductionHypothesis =>
      obtain ⟨caller, shown⟩ := first
      have split :
          lane thread ((caller, shown) :: rest) =
            lane thread [(caller, shown)] ++ lane thread rest :=
        lane_append thread [(caller, shown)] rest
      rw [split, List.count_append, inductionHypothesis,
        lane_singleton, List.count_cons]
      by_cases same : caller = thread
      · subst same
        simp [List.count_cons, Nat.add_comm]
      · simp [same]

/-- Schedules with the same lanes differ in their order only. -/
theorem perm_of_lane_eq
    {first second : List (Thread × Entry)}
    (same : ∀ thread, lane thread first = lane thread second) :
    first.Perm second := by
  classical
  rw [List.perm_iff_count]
  rintro ⟨thread, entry⟩
  rw [← count_lane, ← count_lane, same]

/-- If no other thread contributes, a schedule is the lane of its thread. -/
theorem map_snd_eq_lane
    (thread : Thread)
    {schedule : List (Thread × Entry)}
    (alone : ∀ other, other ≠ thread → lane other schedule = []) :
    schedule.map Prod.snd = lane thread schedule := by
  have own : ∀ entry ∈ schedule, entry.1 = thread := by
    rintro ⟨other, entry⟩ member
    by_contra different
    have present : entry ∈ lane other schedule := by
      simpa [lane] using member
    rw [alone other different] at present
    cases present
  rw [lane, ← List.filterMap_eq_map]
  apply List.filterMap_congr
  intro entry member
  simp [own entry member]

/-- One thread after the other contributes its lane. -/
private theorem lane_flatMap_mk
    (lanes : Thread → List Entry)
    (thread : Thread)
    {threads : List Thread}
    (distinct : threads.Nodup) :
    lane thread
        (threads.flatMap fun caller =>
          (lanes caller).map (Prod.mk caller)) =
      if thread ∈ threads then lanes thread else [] := by
  induction threads with
  | nil =>
      rfl
  | cons first rest inductionHypothesis =>
      obtain ⟨new, others⟩ := List.nodup_cons.mp distinct
      rw [List.flatMap_cons, lane_append, lane_map_mk,
        inductionHypothesis others]
      by_cases same : first = thread
      · subst same
        simp [new]
      · simp [same, Ne.symm same]

/-- What is left when nothing is selected any more can follow in any order. -/
private theorem exists_schedule_of_nothing_selected
    [Fintype Thread]
    (select : Entry → Option Shown)
    (lanes : Thread → List Entry)
    (nothing : ∀ thread, (lanes thread).filterMap select = []) :
    ∃ schedule : List (Thread × Entry),
      (∀ thread, lane thread schedule = lanes thread) ∧
        (schedule.filterMap fun entry =>
          (select entry.2).map (Prod.mk entry.1)) = [] := by
  refine ⟨Finset.univ.toList.flatMap fun caller =>
    (lanes caller).map (Prod.mk caller), ?_, ?_⟩
  · intro thread
    rw [lane_flatMap_mk lanes thread (Finset.nodup_toList _)]
    simp
  · rw [List.filterMap_eq_nil_iff]
    rintro ⟨caller, entry⟩ member
    have inLane : entry ∈ lanes caller := by
      simpa using member
    simp [List.filterMap_eq_nil_iff.mp (nothing caller) entry inLane]

/--
A schedule of what is selected from given lanes extends to a schedule of the
lanes themselves.
-/
theorem exists_schedule_of_selected
    [Fintype Thread]
    (select : Entry → Option Shown)
    (lanes : Thread → List Entry)
    (selected : List (Thread × Shown))
    (same :
      ∀ thread,
        lane thread selected = (lanes thread).filterMap select) :
    ∃ schedule : List (Thread × Entry),
      (∀ thread, lane thread schedule = lanes thread) ∧
        (schedule.filterMap fun entry =>
          (select entry.2).map (Prod.mk entry.1)) = selected := by
  induction selected generalizing lanes with
  | nil =>
      exact exists_schedule_of_nothing_selected select lanes
        fun thread => (same thread).symm
  | cons first rest inductionHypothesis =>
      obtain ⟨caller, shown⟩ := first
      have mine := same caller
      rw [← List.singleton_append, lane_append, lane_singleton,
        if_pos rfl, List.singleton_append] at mine
      -- The caller's lane up to the entry that is shown.
      obtain ⟨hidden, entry, later, shape, skipped, selects, others⟩ :=
        List.filterMap_eq_cons_iff.mp mine.symm
      obtain ⟨schedule, sameLanes, shows⟩ :=
        inductionHypothesis (Function.update lanes caller later) (by
          intro thread
          by_cases isCaller : thread = caller
          · subst isCaller
            rw [Function.update_self, others]
          · rw [Function.update_of_ne isCaller, ← same thread,
              ← List.singleton_append, lane_append, lane_singleton,
              if_neg (Ne.symm isCaller), List.nil_append])
      refine ⟨(hidden ++ [entry]).map (Prod.mk caller) ++ schedule, ?_, ?_⟩
      · intro thread
        rw [lane_append, lane_map_mk, sameLanes]
        by_cases isCaller : thread = caller
        · subst isCaller
          simp [shape]
        · simp [isCaller, Ne.symm isCaller]
      · have nothing :
            ((hidden.map (Prod.mk caller)).filterMap fun entry =>
              (select entry.2).map (Prod.mk entry.1)) = [] := by
          rw [List.filterMap_eq_nil_iff]
          rintro ⟨_, entry⟩ member
          obtain ⟨_, inside, shape⟩ := List.mem_map.mp member
          cases shape
          simp [skipped entry inside]
        rw [List.map_append, List.filterMap_append, List.filterMap_append,
          nothing, shows]
        simp [selects]

/-- A merged sequence that some schedule with the given lanes shows. -/
def Interleaving
    (lanes : Thread → List Entry)
    (merged : List Entry) : Prop :=
  ∃ schedule : List (Thread × Entry),
    (∀ thread, lane thread schedule = lanes thread) ∧
      schedule.map Prod.snd = merged

end Concurrency
