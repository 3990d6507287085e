import Mathlib.Data.List.Basic

namespace Delimited

/-!
# Text with delimiters

A field that does not contain the delimiter behind it can be cut off again.  A
text of entries, each of one line and of a continuation line that begins with
a blank, can be taken apart into its entries.
-/

variable {Symbol : Type}

/-- A field ends at the first delimiter. -/
theorem cut
    {delimiter : Symbol}
    {first second rest others : List Symbol}
    (absent : delimiter ∉ first)
    (absentToo : delimiter ∉ second)
    (same : first ++ delimiter :: rest = second ++ delimiter :: others) :
    first = second ∧ rest = others := by
  induction first generalizing second with
  | nil =>
      cases second with
      | nil =>
          exact ⟨rfl, (List.cons.inj same).2⟩
      | cons symbol later =>
          have isDelimiter : delimiter = symbol := (List.cons.inj same).1
          exact (absentToo (by simp [isDelimiter])).elim
  | cons symbol earlier inductionHypothesis =>
      cases second with
      | nil =>
          have isDelimiter : symbol = delimiter := (List.cons.inj same).1
          exact (absent (by simp [isDelimiter])).elim
      | cons symbolToo later =>
          obtain ⟨rfl, sameLater⟩ := List.cons.inj same
          obtain ⟨rfl, sameRest⟩ :=
            inductionHypothesis
              (fun inside => absent (List.mem_cons_of_mem _ inside))
              (fun inside => absentToo (List.mem_cons_of_mem _ inside))
              sameLater
          exact ⟨rfl, sameRest⟩

/-- Where one view determines another, so it does along two lists. -/
theorem map_eq_map_of_view
    {First Second : Type}
    {view : Symbol → First}
    {shown : Symbol → Second}
    {symbols others : List Symbol}
    (determines :
      ∀ symbol ∈ symbols, ∀ other ∈ others,
        view symbol = view other → shown symbol = shown other)
    (same : symbols.map view = others.map view) :
    symbols.map shown = others.map shown := by
  induction symbols generalizing others with
  | nil =>
      rw [List.map_nil, eq_comm, List.map_eq_nil_iff] at same
      rw [same]
  | cons symbol later inductionHypothesis =>
      cases others with
      | nil =>
          cases same
      | cons other rest =>
          obtain ⟨sameView, sameViews⟩ := List.cons.inj same
          rw [List.map_cons, List.map_cons,
            determines symbol List.mem_cons_self other
              List.mem_cons_self sameView,
            inductionHypothesis (fun symbol inside other isOther =>
              determines symbol (List.mem_cons_of_mem _ inside) other
                (List.mem_cons_of_mem _ isOther)) sameViews]

/-- A line and, if there is one, the line that continues it. -/
structure Entry (Symbol : Type) where
  line : List Symbol
  continuation : Option (List Symbol)

namespace Entry

variable (newline blank : Symbol)

/-- The text of an entry; the blank marks a continuation. -/
def text (entry : Entry Symbol) : List Symbol :=
  entry.line ++ newline ::
    match entry.continuation with
    | none => []
    | some more => blank :: more ++ [newline]

/-- The entry can be recognised in a text. -/
structure Recognisable (entry : Entry Symbol) : Prop where
  line : newline ∉ entry.line
  first :
    ∃ symbol rest, entry.line = symbol :: rest ∧ symbol ≠ blank
  continuation :
    ∀ more, entry.continuation = some more → newline ∉ more

variable {newline blank}

/-- Text of recognisable entries does not begin like a continuation. -/
private theorem flatMap_text_ne_blank
    {entries : List (Entry Symbol)}
    (recognisable :
      ∀ entry ∈ entries, entry.Recognisable newline blank)
    (rest : List Symbol) :
    entries.flatMap (text newline blank) ≠ blank :: rest := by
  cases entries with
  | nil =>
      simp
  | cons entry later =>
      obtain ⟨symbol, others, shape, notBlank⟩ :=
        (recognisable entry List.mem_cons_self).first
      intro same
      rw [List.flatMap_cons, text, shape] at same
      exact notBlank (List.cons.inj same).1

/-- Recognisable entries can be told from their text. -/
theorem flatMap_text_injective
    {first second : List (Entry Symbol)}
    (recognisable : ∀ entry ∈ first, entry.Recognisable newline blank)
    (recognisableToo :
      ∀ entry ∈ second, entry.Recognisable newline blank)
    (same :
      first.flatMap (text newline blank) =
        second.flatMap (text newline blank)) :
    first = second := by
  induction first generalizing second with
  | nil =>
      cases second with
      | nil =>
          rfl
      | cons entry later =>
          simp [text] at same
  | cons entry earlier inductionHypothesis =>
      cases second with
      | nil =>
          simp [text] at same
      | cons other later =>
          obtain ⟨well, wellLater⟩ := List.forall_mem_cons.mp recognisable
          obtain ⟨wellToo, wellLaterToo⟩ :=
            List.forall_mem_cons.mp recognisableToo
          obtain ⟨line, continuation⟩ := entry
          obtain ⟨otherLine, otherContinuation⟩ := other
          simp only [List.flatMap_cons, text, List.append_assoc,
            List.cons_append] at same
          obtain ⟨rfl, behind⟩ := cut well.line wellToo.line same
          have next
              (sameText :
                earlier.flatMap (text newline blank) =
                  later.flatMap (text newline blank)) :
              earlier = later :=
            inductionHypothesis wellLater wellLaterToo sameText
          cases continuation with
          | none =>
              cases otherContinuation with
              | none =>
                  rw [next behind]
              | some more =>
                  exact (flatMap_text_ne_blank wellLater _ behind).elim
          | some more =>
              cases otherContinuation with
              | none =>
                  exact (flatMap_text_ne_blank wellLaterToo _
                    behind.symm).elim
              | some otherMore =>
                  simp only [List.append_assoc, List.cons_append,
                    List.nil_append, List.cons.injEq, true_and] at behind
                  obtain ⟨rfl, afterwards⟩ :=
                    cut (well.continuation more rfl)
                      (wellToo.continuation otherMore rfl) behind
                  rw [next afterwards]

end Entry

end Delimited
