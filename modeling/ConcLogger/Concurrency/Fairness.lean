import Mathlib.Order.WellFounded
import Mathlib.Data.List.Range
import ConcLogger.Concurrency.Machine

namespace Concurrency

/-!
# Infinite executions and fairness

An execution goes on for ever; at each position the scheduler chooses an event
or nothing happens, so that finite runs are executions as well.  Events belong
to processes.  A process is treated fairly if it is not kept waiting for ever
once it can always move.

`Execution.eventually` is the rule for progress: as long as the goal is not
reached, some process can move that brings the execution forward, and no step
takes it back.
-/

variable {State Event Obs Process : Type}

/-- An infinite execution, in which nothing may happen at a position. -/
structure Execution (machine : Machine State Event Obs) where
  state : Nat → State
  event : Nat → Option Event
  emitted : Nat → List Obs
  step :
    ∀ position,
      (∃ chosen,
          event position = some chosen ∧
            machine.step? (state position) chosen =
              some (state (position + 1), emitted position)) ∨
        (event position = none ∧
          state (position + 1) = state position ∧
          emitted position = [])

/-- A process can move: one of its events is possible. -/
def Enabled
    (machine : Machine State Event Obs)
    (owner : Event → Option Process)
    (process : Process)
    (state : State) : Prop :=
  ∃ event,
    owner event = some process ∧
      (machine.step? state event).isSome = true

/--
The rule for running to rest: if the steps of the processes are allowed, lower
a number and keep `holds`, then such steps lead from every state with `holds`
to one in which no process can move.
-/
theorem Machine.ReachesBy.exists_rest
    {machine : Machine State Event Obs}
    {allowed : State → Event → Prop}
    (owner : Event → Option Process)
    (left : State → Nat)
    (holds : List Obs → State → Prop)
    (moves :
      ∀ {observed emitted : List Obs}
        {state next : State} {event : Event},
        machine.ReachesBy allowed observed state →
        holds observed state →
        owner event ≠ none →
        machine.step? state event = some (next, emitted) →
        allowed state event ∧
          left next < left state ∧ holds (observed ++ emitted) next)
    {observed : List Obs}
    {state : State}
    (reached : machine.ReachesBy allowed observed state)
    (initially : holds observed state) :
    ∃ emitted final,
      machine.ReachesBy allowed (observed ++ emitted) final ∧
        holds (observed ++ emitted) final ∧
        ∀ process, ¬ Enabled machine owner process final := by
  induction remaining : left state using Nat.strong_induction_on
    generalizing observed state with
  | h current inductionHypothesis =>
      subst remaining
      by_cases active : ∃ process, Enabled machine owner process state
      · obtain ⟨process, event, owned, possible⟩ := active
        obtain ⟨⟨next, first⟩, taken⟩ := Option.isSome_iff_exists.mp possible
        obtain ⟨permitted, less, kept⟩ :=
          moves reached initially (by simp [owned]) taken
        obtain ⟨emitted, final, continued, keptLater, stuck⟩ :=
          inductionHypothesis _ less
            (.step event reached permitted taken) kept rfl
        rw [List.append_assoc] at continued keptLater
        exact ⟨first ++ emitted, final, continued, keptLater, stuck⟩
      · refine ⟨[], state, ?_, ?_, not_exists.mp active⟩ <;>
          rwa [List.append_nil]

namespace Execution

variable
  {machine : Machine State Event Obs}
  (execution : Execution machine)

/-- The event at a position is the step that is taken there. -/
theorem step?_of_event
    {position : Nat}
    {chosen : Event}
    (isChosen : execution.event position = some chosen) :
    machine.step? (execution.state position) chosen =
      some (execution.state (position + 1), execution.emitted position) := by
  rcases execution.step position with
    ⟨event, isEvent, taken⟩ | ⟨nothing, _⟩
  · obtain rfl := Option.some.inj (isChosen.symm.trans isEvent)
    exact taken
  · rw [isChosen] at nothing
    cases nothing

/-- What has been seen before a position. -/
def record (position : Nat) : List Obs :=
  (List.range position).flatMap execution.emitted

@[simp] theorem record_zero : execution.record 0 = [] :=
  rfl

theorem record_succ (position : Nat) :
    execution.record (position + 1) =
      execution.record position ++ execution.emitted position := by
  simp [record, List.range_succ]

/-- The record only grows. -/
theorem record_prefix
    {start position : Nat}
    (later : start ≤ position) :
    execution.record start <+: execution.record position := by
  induction position, later using Nat.le_induction with
  | base =>
      exact List.prefix_refl _
  | succ position later inductionHypothesis =>
      rw [record_succ]
      exact inductionHypothesis.trans (List.prefix_append _ _)

/-- An execution from a reached state reaches all its states. -/
theorem reaches_record
    {observed : List Obs}
    (reached : machine.Reaches observed (execution.state 0))
    (position : Nat) :
    machine.Reaches (observed ++ execution.record position)
      (execution.state position) := by
  induction position with
  | zero =>
      simpa using reached
  | succ position inductionHypothesis =>
      rw [record_succ, ← List.append_assoc]
      rcases execution.step position with
        ⟨chosen, _, taken⟩ | ⟨_, same, silent⟩
      · exact inductionHypothesis.step chosen trivial taken
      · simpa [same, silent] using inductionHypothesis

/-- An execution of allowed steps reaches its states by allowed steps. -/
theorem reachesBy_record
    {allowed : State → Event → Prop}
    {observed : List Obs}
    (reached : machine.ReachesBy allowed observed (execution.state 0))
    (permitted :
      ∀ position chosen,
        execution.event position = some chosen →
        allowed (execution.state position) chosen)
    (position : Nat) :
    machine.ReachesBy allowed (observed ++ execution.record position)
      (execution.state position) := by
  induction position with
  | zero =>
      simpa using reached
  | succ position inductionHypothesis =>
      rw [record_succ, ← List.append_assoc]
      rcases execution.step position with
        ⟨chosen, isChosen, taken⟩ | ⟨_, same, silent⟩
      · exact inductionHypothesis.step chosen
          (permitted position chosen isChosen) taken
      · simpa [same, silent] using inductionHypothesis

/--
The invariant rule for executions: what holds at the beginning and is kept by
every step from a state of the execution holds all along.
-/
theorem always
    (holds : List Obs → State → Prop)
    (initially : holds [] (execution.state 0))
    (preserved :
      ∀ position event,
        holds (execution.record position) (execution.state position) →
        machine.step? (execution.state position) event =
          some (execution.state (position + 1),
            execution.emitted position) →
        holds (execution.record position ++ execution.emitted position)
          (execution.state (position + 1)))
    (position : Nat) :
    holds (execution.record position) (execution.state position) := by
  induction position with
  | zero =>
      exact initially
  | succ position inductionHypothesis =>
      rw [record_succ]
      rcases execution.step position with
        ⟨chosen, _, taken⟩ | ⟨_, same, silent⟩
      · exact preserved position chosen inductionHypothesis taken
      · simpa [same, silent] using inductionHypothesis

variable (owner : Event → Option Process)

/-- The step at a position is one of the process. -/
def Moves (process : Process) (position : Nat) : Prop :=
  (execution.event position).bind owner = some process

/-- A process that can always move from some position on moves after it. -/
def WeaklyFair (process : Process) : Prop :=
  ∀ start,
    (∀ position,
      start ≤ position →
      Enabled machine owner process (execution.state position)) →
    ∃ position, start ≤ position ∧ execution.Moves owner process position

variable {Rank : Type} [Preorder Rank] [WellFoundedLT Rank]

omit [WellFoundedLT Rank] in
/-- While a helper does not move and nothing else helps, it can always move. -/
private theorem helper_stays
    {goal : Nat → Prop}
    {rank : Nat → Rank}
    {helps : Process → Nat → Prop}
    (progress :
      ∀ process position,
        ¬ goal position →
        helps process position →
        goal (position + 1) ∨
          rank (position + 1) < rank position ∨
          (rank (position + 1) = rank position ∧
            helps process (position + 1) ∧
            ¬ execution.Moves owner process position))
    {start : Nat}
    {process : Process}
    (helpful : helps process start)
    (never : ∀ position, start ≤ position → ¬ goal position)
    (noLess :
      ∀ position, start ≤ position → ¬ rank position < rank start)
    (position : Nat)
    (later : start ≤ position) :
    helps process position ∧
      rank position = rank start ∧
      ¬ execution.Moves owner process position := by
  have continues
      (position : Nat)
      (later : start ≤ position)
      (same : rank position = rank start)
      (stillHelpful : helps process position) :
      rank (position + 1) = rank start ∧
        helps process (position + 1) ∧
        ¬ execution.Moves owner process position := by
    rcases progress process position (never position later)
        stillHelpful with
      reached | less | ⟨unchanged, helpsNext, waits⟩
    · exact (never (position + 1) (by omega) reached).elim
    · rw [same] at less
      exact (noLess (position + 1) (by omega) less).elim
    · exact ⟨unchanged.trans same, helpsNext, waits⟩
  induction position, later using Nat.le_induction with
  | base =>
      exact ⟨helpful, rfl, (continues start le_rfl rfl helpful).2.2⟩
  | succ position later inductionHypothesis =>
      obtain ⟨stillHelpful, same, _⟩ := inductionHypothesis
      obtain ⟨sameNext, helpsNext, _⟩ :=
        continues position later same stillHelpful
      exact ⟨helpsNext, sameNext,
        (continues (position + 1) (by omega) sameNext helpsNext).2.2⟩

/--
The progress rule.  Before the goal is reached some process helps: it can
move, its moves lower the rank, and until it moves the others lower the rank
or leave it and the helper alone.  If all helpers are treated fairly, the goal
is reached.
-/
theorem eventually
    (goal : Nat → Prop)
    (rank : Nat → Rank)
    (helps : Process → Nat → Prop)
    (helped :
      ∀ position, ¬ goal position → ∃ process, helps process position)
    (enabled :
      ∀ process position,
        ¬ goal position →
        helps process position →
        Enabled machine owner process (execution.state position))
    (progress :
      ∀ process position,
        ¬ goal position →
        helps process position →
        goal (position + 1) ∨
          rank (position + 1) < rank position ∨
          (rank (position + 1) = rank position ∧
            helps process (position + 1) ∧
            ¬ execution.Moves owner process position))
    (fair : ∀ process, execution.WeaklyFair owner process)
    (start : Nat) :
    ∃ position, start ≤ position ∧ goal position := by
  induction lowered : rank start using WellFoundedLT.induction
    generalizing start with
  | ind current inductionHypothesis =>
      subst lowered
      by_contra unreached
      simp only [not_exists, not_and] at unreached
      have noLess :
          ∀ position, start ≤ position → ¬ rank position < rank start := by
        intro position later less
        obtain ⟨reachedAt, afterwards, reached⟩ :=
          inductionHypothesis (rank position) less position rfl
        exact unreached reachedAt (later.trans afterwards) reached
      obtain ⟨process, helpful⟩ :=
        helped start (unreached start le_rfl)
      have stays :=
        execution.helper_stays owner progress helpful unreached noLess
      obtain ⟨moved, later, moves⟩ :=
        fair process start fun position later =>
          enabled process position (unreached position later)
            (stays position later).1
      exact (stays moved later).2.2 moves

/-! ## Coming to rest -/

/-- Where nothing happens any more the state stays as it is. -/
theorem state_eq_of_silent
    {finish : Nat}
    (silent :
      ∀ position, finish ≤ position → execution.event position = none)
    (position : Nat)
    (later : finish ≤ position) :
    execution.state position = execution.state finish := by
  induction position, later using Nat.le_induction with
  | base =>
      rfl
  | succ position later inductionHypothesis =>
      rcases execution.step position with
        ⟨chosen, isChosen, _⟩ | ⟨_, same, _⟩
      · rw [silent position later] at isChosen
        cases isChosen
      · exact same.trans inductionHypothesis

/-- Where no event raises a number, the number never grows. -/
private theorem left_le
    (left : State → Nat)
    {start : Nat}
    (notRaised :
      ∀ position chosen,
        start ≤ position →
        execution.event position = some chosen →
        left (execution.state (position + 1)) ≤
          left (execution.state position))
    (position : Nat)
    (later : start ≤ position) :
    left (execution.state position) ≤ left (execution.state start) := by
  induction position, later using Nat.le_induction with
  | base =>
      exact le_rfl
  | succ position later inductionHypothesis =>
      rcases execution.step position with
        ⟨chosen, isChosen, _⟩ | ⟨_, same, _⟩
      · exact (notRaised position chosen later isChosen).trans
          inductionHypothesis
      · rwa [same]

/--
The rule for coming to rest.  If from some position on every event lowers a
number, events come to an end, and then no process that is treated fairly can
move any more.
-/
theorem comes_to_rest
    (left : State → Nat)
    {start : Nat}
    (lowers :
      ∀ position,
        start ≤ position →
        execution.event position ≠ none →
        left (execution.state (position + 1)) <
          left (execution.state position)) :
    ∃ finish,
      start ≤ finish ∧
        (∀ position,
          finish ≤ position →
          execution.event position = none ∧
            execution.state position = execution.state finish) ∧
        ∀ process,
          execution.WeaklyFair owner process →
          ¬ Enabled machine owner process (execution.state finish) := by
  induction remaining : left (execution.state start)
    using Nat.strong_induction_on generalizing start with
  | h current inductionHypothesis =>
      subst remaining
      by_cases active :
          ∃ position, start ≤ position ∧ execution.event position ≠ none
      · obtain ⟨position, later, happens⟩ := active
        have less :
            left (execution.state (position + 1)) <
              left (execution.state start) :=
          (lowers position later happens).trans_le
            (execution.left_le left
              (fun next chosen after isChosen =>
                (lowers next after (by simp [isChosen])).le)
              position later)
        obtain ⟨finish, afterwards, rests⟩ :=
          inductionHypothesis _ less
            (fun next after => lowers next (by omega)) rfl
        exact ⟨finish, by omega, rests⟩
      · have silent :
            ∀ position,
              start ≤ position → execution.event position = none := by
          simpa using active
        refine ⟨start, le_rfl, ?_, ?_⟩
        · exact fun position later =>
            ⟨silent position later,
              execution.state_eq_of_silent silent position later⟩
        · intro process fair enabled
          obtain ⟨position, later, moves⟩ :=
            fair start fun position later => by
              rwa [execution.state_eq_of_silent silent position later]
          rw [Moves, silent position later] at moves
          cases moves

/--
The rule for coming to rest beside somebody else.  From some position on every
event is a step of a process, which lowers a number, or belongs to nobody; then
it does not raise the number and leaves the processes able to move that could.
In the end no process that is treated fairly can move.
-/
theorem settles
    (left : State → Nat)
    {start : Nat}
    (lowers :
      ∀ position chosen,
        start ≤ position →
        execution.event position = some chosen →
        owner chosen ≠ none →
        left (execution.state (position + 1)) <
          left (execution.state position))
    (leaves :
      ∀ position chosen,
        start ≤ position →
        execution.event position = some chosen →
        owner chosen = none →
        left (execution.state (position + 1)) ≤
            left (execution.state position) ∧
          ∀ process,
            Enabled machine owner process (execution.state position) →
            Enabled machine owner process
              (execution.state (position + 1))) :
    ∃ finish,
      start ≤ finish ∧
        ∀ process,
          execution.WeaklyFair owner process →
          ∀ position,
            finish ≤ position →
            ¬ Enabled machine owner process (execution.state position) := by
  have notRaised
      (position : Nat)
      (chosen : Event)
      (later : start ≤ position)
      (isChosen : execution.event position = some chosen) :
      left (execution.state (position + 1)) ≤
        left (execution.state position) := by
    by_cases owned : owner chosen = none
    · exact (leaves position chosen later isChosen owned).1
    · exact (lowers position chosen later isChosen owned).le
  induction remaining : left (execution.state start)
    using Nat.strong_induction_on generalizing start with
  | h current inductionHypothesis =>
      subst remaining
      by_cases active :
          ∃ position process,
            start ≤ position ∧ execution.Moves owner process position
      · obtain ⟨position, process, later, moves⟩ := active
        obtain ⟨chosen, isChosen, owned⟩ := Option.bind_eq_some_iff.mp moves
        have less :
            left (execution.state (position + 1)) <
              left (execution.state start) :=
          (lowers position chosen later isChosen (by simp [owned])).trans_le
            (execution.left_le left notRaised position later)
        obtain ⟨finish, afterwards, rests⟩ :=
          inductionHypothesis _ less
            (fun next chosen after => lowers next chosen (by omega))
            (fun next chosen after => leaves next chosen (by omega))
            (fun next chosen after => notRaised next chosen (by omega)) rfl
        exact ⟨finish, by omega, rests⟩
      · refine ⟨start, le_rfl, ?_⟩
        intro process fair position later enabled
        -- Nobody moves any more, so what can move once can move for ever.
        have always
            (next : Nat)
            (after : position ≤ next) :
            Enabled machine owner process (execution.state next) := by
          induction next, after using Nat.le_induction with
          | base =>
              exact enabled
          | succ next after enabledBefore =>
              rcases execution.step next with
                ⟨chosen, isChosen, _⟩ | ⟨_, same, _⟩
              · cases owned : owner chosen with
                | none =>
                    exact (leaves next chosen (later.trans after) isChosen
                      owned).2 process enabledBefore
                | some mover =>
                    exact (active ⟨next, mover, later.trans after, by
                      rw [Moves, isChosen]
                      exact owned⟩).elim
              · rwa [same]
        obtain ⟨moved, after, moves⟩ := fair position always
        exact active ⟨moved, process, later.trans after, moves⟩

end Execution

/-! ## Following a schedule -/

section Schedule

variable
  (machine : Machine State Event Obs)
  (schedule : Nat → Option Event)
  (start : State)

/-- What happens at a position when the schedule is followed from a state. -/
def followed? (position : Nat) (state : State) :
    Option (State × List Obs) :=
  (schedule position).bind (machine.step? state)

/-- The states on the way; a step that is not possible is left out. -/
def replayed : Nat → State
  | 0 => start
  | position + 1 =>
      match followed? machine schedule position (replayed position) with
      | some (next, _) => next
      | none => replayed position

/-- A schedule is followed for ever, as far as that is possible. -/
def replay : Execution machine where
  state := replayed machine schedule start
  event position :=
    if (followed? machine schedule position
        (replayed machine schedule start position)).isSome then
      schedule position
    else
      none
  emitted position :=
    match followed? machine schedule position
        (replayed machine schedule start position) with
    | some (_, emitted) => emitted
    | none => []
  step := by
    intro position
    cases taken : followed? machine schedule position
        (replayed machine schedule start position) with
    | none =>
        exact Or.inr ⟨by simp, by simp [replayed, taken], rfl⟩
    | some result =>
        obtain ⟨chosen, isChosen, stepped⟩ :=
          Option.bind_eq_some_iff.mp taken
        refine Or.inl ⟨chosen, by simp [isChosen], ?_⟩
        simpa [replayed, taken] using stepped

variable
  {machine schedule start}
  {finish : Nat}
  (ended : ∀ position, finish ≤ position → schedule position = none)

include ended

/-- Where the schedule has ended, nothing happens any more. -/
theorem replay_rests
    (position : Nat)
    (later : finish ≤ position) :
    (replay machine schedule start).state position =
        (replay machine schedule start).state finish ∧
      (replay machine schedule start).record position =
        (replay machine schedule start).record finish := by
  induction position, later using Nat.le_induction with
  | base =>
      exact ⟨rfl, rfl⟩
  | succ position later inductionHypothesis =>
      obtain ⟨sameState, sameRecord⟩ := inductionHypothesis
      have nothing : (replay machine schedule start).event position = none := by
        simp [replay, ended position later]
      rcases (replay machine schedule start).step position with
        ⟨chosen, isChosen, _⟩ | ⟨_, same, silent⟩
      · rw [nothing] at isChosen
        cases isChosen
      · rw [same, Execution.record_succ, silent, List.append_nil]
        exact ⟨sameState, sameRecord⟩

/-- All that is ever seen is seen until the schedule ends. -/
theorem replay_record_prefix (position : Nat) :
    (replay machine schedule start).record position <+:
      (replay machine schedule start).record finish := by
  rcases Nat.le_total position finish with earlier | later
  · exact Execution.record_prefix _ earlier
  · have same :
        (replay machine schedule start).record position =
          (replay machine schedule start).record finish :=
      (replay_rests ended position later).2
    exact ⟨[], by rw [List.append_nil, same]⟩

omit ended in
/-- What happens at a position is what the schedule says. -/
theorem replay_event
    {position : Nat}
    {chosen : Event}
    (happens :
      (replay machine schedule start).event position = some chosen) :
    schedule position = some chosen := by
  simp only [replay] at happens
  split at happens
  · exact happens
  · cases happens

/-- If nobody can move at the end, everybody is treated fairly. -/
theorem replay_weaklyFair
    {owner : Event → Option Process}
    {process : Process}
    (rests :
      ¬ Enabled machine owner process
        ((replay machine schedule start).state finish)) :
    (replay machine schedule start).WeaklyFair owner process := by
  intro waiting always
  have atEnd := always (max waiting finish) (Nat.le_max_left _ _)
  rw [(replay_rests ended _ (Nat.le_max_right _ _)).1] at atEnd
  exact (rests atEnd).elim

end Schedule

end Concurrency
