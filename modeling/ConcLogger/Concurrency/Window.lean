import Mathlib.Data.List.DropRight

namespace Concurrency

/-!
# Windows of bounded size

A buffer of bounded size to which items are offered one after the other keeps
the first of them, if it turns away what does not fit, or the last of them, if
it gives up its oldest item instead.  In terms of the sequence of offered items
these are `List.take` and `List.rtake`; the lemmas below say how both change
when one more item is offered.
-/

variable
  {Item : Type}
  {offered : List Item}
  {size : Nat}

section Take

/-- With room, the window of first items takes in the new one. -/
theorem take_concat_of_room
    (item : Item)
    (room : offered.length < size) :
    (offered ++ [item]).take size = offered.take size ++ [item] := by
  rw [List.take_of_length_le (Nat.le_of_lt room)]
  apply List.take_of_length_le
  simpa using Nat.succ_le_of_lt room

/-- A full window of first items does not change. -/
theorem take_concat_of_full
    (item : Item)
    (full : size ≤ offered.length) :
    (offered ++ [item]).take size = offered.take size :=
  List.take_append_of_le_length full

end Take

section RTake

/-- A window of last items is as long as it can be. -/
theorem length_rtake :
    (offered.rtake size).length = min size offered.length := by
  rw [List.rtake, List.length_drop]
  omega

/-- While everything fits, the window of last items is the whole sequence. -/
theorem rtake_of_length_le
    (fits : offered.length ≤ size) :
    offered.rtake size = offered := by
  rw [List.rtake, Nat.sub_eq_zero_of_le fits, List.drop_zero]

/-- With room, the window of last items takes in the new one. -/
theorem rtake_concat_of_room
    (item : Item)
    (room : offered.length < size) :
    (offered ++ [item]).rtake size = offered.rtake size ++ [item] := by
  rw [rtake_of_length_le (Nat.le_of_lt room)]
  apply rtake_of_length_le
  simpa using Nat.succ_le_of_lt room

/-- A full window of last items gives up its oldest item for the new one. -/
theorem rtake_concat_of_full
    (item : Item)
    (positive : 0 < size)
    (full : size ≤ offered.length) :
    (offered ++ [item]).rtake size =
      (offered.rtake size).tail ++ [item] := by
  obtain ⟨smaller, rfl⟩ := Nat.exists_eq_succ_of_ne_zero
    (Nat.ne_of_gt positive)
  rw [Nat.succ_eq_add_one, List.rtake_concat_succ, List.rtake,
    List.rtake, List.tail_drop]
  congr 2
  omega

end RTake

end Concurrency
