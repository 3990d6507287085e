import Mathlib.Data.List.Basic
import Mathlib.Data.List.Nodup

namespace Concurrency

/-!
# Sequences from which items are withdrawn

A lossy first-in first-out channel is described by two lists: everything that
was entered, in order, and everything that was withdrawn again.  Its contents
are the entered items that have not been withdrawn.
-/

variable {Item : Type} [DecidableEq Item]

/-- The entered items that have not been withdrawn, in the order of entry. -/
def survivors (entered withdrawn : List Item) : List Item :=
  entered.filter fun item => decide (item ∉ withdrawn)

theorem mem_survivors
    {entered withdrawn : List Item}
    {item : Item} :
    item ∈ survivors entered withdrawn ↔
      item ∈ entered ∧ item ∉ withdrawn := by
  simp [survivors]

/-- Survivors keep the order of entry. -/
theorem survivors_sublist
    (entered withdrawn : List Item) :
    (survivors entered withdrawn).Sublist entered :=
  List.filter_sublist

/-- Nothing is lost while nothing is withdrawn. -/
@[simp] theorem survivors_nil_right
    (entered : List Item) :
    survivors entered [] = entered := by
  simp [survivors]

/-- An item that was never withdrawn is entered at the end of the survivors. -/
theorem survivors_enter
    {entered withdrawn : List Item}
    {item : Item}
    (kept : item ∉ withdrawn) :
    survivors (entered ++ [item]) withdrawn =
      survivors entered withdrawn ++ [item] := by
  simp [survivors, kept]

/--
Withdrawing one of several distinct survivors removes exactly that item from
the sequence of survivors.
-/
theorem survivors_withdraw
    {entered withdrawn front back : List Item}
    {item : Item}
    (noDuplicates : entered.Nodup)
    (shape : survivors entered withdrawn = front ++ item :: back) :
    survivors entered (withdrawn ++ [item]) = front ++ back := by
  have survivorsNodup : (front ++ item :: back).Nodup := by
    rw [← shape]
    exact (survivors_sublist entered withdrawn).nodup noDuplicates
  have itemAbsent : item ∉ front ++ back := by
    have rotated := List.nodup_middle.mp survivorsNodup
    exact (List.nodup_cons.mp rotated).1
  have filteredTwice :
      survivors entered (withdrawn ++ [item]) =
        (survivors entered withdrawn).filter fun other =>
          decide (other ≠ item) := by
    simp only [survivors, List.filter_filter]
    apply List.filter_congr
    intro other _
    simp [and_comm]
  rw [filteredTwice, shape]
  simp only [List.filter_append, List.filter_cons, ne_eq,
    not_true_eq_false, decide_false, Bool.false_eq_true, ↓reduceIte]
  rw [← List.filter_append]
  apply List.filter_eq_self.mpr
  intro other member
  have different : other ≠ item := by
    rintro rfl
    exact itemAbsent member
  simpa using different

omit [DecidableEq Item] in
/-- A prefix of a list without duplicates has no gaps. -/
theorem mem_of_pair_sublist
    {items delivered : List Item}
    {first last : Item}
    (distinct : items.Nodup)
    (isPrefix : delivered <+: items)
    (ordered : [first, last].Sublist items)
    (reached : last ∈ delivered) :
    first ∈ delivered := by
  obtain ⟨rest, rfl⟩ := isPrefix
  obtain ⟨left, right, shape, inDelivered, inRest⟩ :=
    List.sublist_append_iff.mp ordered
  cases left with
  | nil =>
      rw [List.nil_append] at shape
      subst shape
      have lastInRest : last ∈ rest :=
        inRest.subset (by simp)
      exact (List.disjoint_of_nodup_append distinct reached
        lastInRest).elim
  | cons head tail =>
      obtain ⟨rfl, _⟩ := List.cons.inj shape
      exact inDelivered.subset (by simp)

/-- Order among the survivors is the order of entrance. -/
theorem pair_sublist_survivors
    {entered withdrawn : List Item}
    {first last : Item}
    (ordered : [first, last].Sublist entered)
    (firstKept : first ∉ withdrawn)
    (lastKept : last ∉ withdrawn) :
    [first, last].Sublist (survivors entered withdrawn) := by
  have filtered :=
    ordered.filter fun item => decide (item ∉ withdrawn)
  simpa [survivors, firstKept, lastKept] using filtered

end Concurrency
