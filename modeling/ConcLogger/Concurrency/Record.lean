import Mathlib.Data.List.Basic

namespace Concurrency

/-!
# The latest occurrence in a record

A call that is under way began with the latest occurrence of its invocation in
the record of the run.  What happened before it and what has happened since
are determined by the record.
-/

variable {Obs : Type}

/-- An observation in a prolonged record was made before or is new. -/
theorem prefix_append_cases
    {front record emitted : List Obs}
    {seen : Obs}
    (isPrefix : front ++ [seen] <+: record ++ emitted) :
    front ++ [seen] <+: record ∨
      ∃ middle,
        front = record ++ middle ∧ middle ++ [seen] <+: emitted := by
  obtain ⟨rest, shape⟩ := isPrefix
  rcases List.append_eq_append_iff.mp shape with
    ⟨middle, longer, _⟩ | ⟨middle, longer, tail⟩
  · exact Or.inl ⟨middle, longer.symm⟩
  · rcases List.eq_nil_or_concat middle with
      rfl | ⟨initial, last, rfl⟩
    · exact Or.inl ⟨[], by simpa using longer⟩
    · have same :
          front ++ [seen] = (record ++ initial) ++ [last] := by
        simpa using longer
      obtain ⟨sameFront, sameLast⟩ := List.append_inj' same rfl
      cases sameLast
      exact Or.inr ⟨initial, sameFront, rest, by simp [tail]⟩

/-- A record split at the latest occurrence of an observation. -/
structure Latest
    (call : Obs)
    (record before during : List Obs) : Prop where
  shape : record = before ++ call :: during
  absent : call ∉ during

namespace Latest

variable
  {call : Obs}
  {record emitted before during before' during' : List Obs}

/-- An observation is the latest of its kind when it has just been made. -/
theorem now : Latest call (record ++ [call]) record [] :=
  ⟨rfl, by simp⟩

/-- Other observations prolong what has happened since. -/
theorem append
    (latest : Latest call record before during)
    (other : call ∉ emitted) :
    Latest call (record ++ emitted) before (during ++ emitted) where
  shape := by
    rw [latest.shape, List.append_assoc, List.cons_append]
  absent := by
    rw [List.mem_append]
    exact not_or.mpr ⟨latest.absent, other⟩

/-- Nothing lies between the latest occurrence and a later one. -/
private theorem middle_eq_nil
    {middle : List Obs}
    (absent : call ∉ during)
    (rest : call :: during = middle ++ call :: during') :
    middle = [] := by
  cases middle with
  | nil =>
      rfl
  | cons head tail =>
      obtain ⟨_, inDuring⟩ := List.cons.inj rest
      exact (absent (by simp [inDuring])).elim

/-- A record has one latest occurrence at most. -/
theorem unique
    (first : Latest call record before during)
    (second : Latest call record before' during') :
    before = before' ∧ during = during' := by
  have same : before ++ call :: during = before' ++ call :: during' :=
    first.shape.symm.trans second.shape
  rcases List.append_eq_append_iff.mp same with
    ⟨middle, longer, rest⟩ | ⟨middle, longer, rest⟩
  · obtain rfl := middle_eq_nil first.absent rest
    exact ⟨by simpa using longer.symm, (List.cons.inj rest).2⟩
  · obtain rfl := middle_eq_nil second.absent rest
    exact ⟨by simpa using longer, (List.cons.inj rest).2.symm⟩

end Latest

end Concurrency
