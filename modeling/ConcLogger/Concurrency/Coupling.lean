import ConcLogger.Concurrency.Machine

namespace Concurrency

/-!
# Two machines side by side

A component that another one calls is a machine of its own.  Coupled to its
caller, either machine takes a step alone or both take one at once; a side
condition on both states says when.  What is known of the runs of a machine
holds of its part in every coupled run.
-/

/-- A step of the first machine, of the second one or of both at once. -/
inductive Coupled (First Second : Type) where
  | first (event : First)
  | second (event : Second)
  | both (event : First) (other : Second)

variable
  {State Event Obs : Type}
  {State' Event' Obs' : Type}

namespace Machine

/-- Both machines, each with its own state and observations. -/
def couple
    (machine : Machine State Event Obs)
    (other : Machine State' Event' Obs') :
    Machine (State × State') (Coupled Event Event') (Obs ⊕ Obs') where
  init := (machine.init, other.init)
  step? state
    | .first event =>
        (machine.step? state.1 event).map fun result =>
          ((result.1, state.2), result.2.map .inl)
    | .second event =>
        (other.step? state.2 event).map fun result =>
          ((state.1, result.1), result.2.map .inr)
    | .both event called =>
        (machine.step? state.1 event).bind fun result =>
          (other.step? state.2 called).map fun answer =>
            ((result.1, answer.1),
              result.2.map .inl ++ answer.2.map .inr)

/-- The steps of coupled machines. -/
inductive CoupledStep
    (machine : Machine State Event Obs)
    (other : Machine State' Event' Obs')
    (state : State × State') :
    Coupled Event Event' → List (Obs ⊕ Obs') → State × State' → Prop where
  | first
      (event : Event)
      (next : State)
      (emitted : List Obs)
      (taken : machine.step? state.1 event = some (next, emitted)) :
      CoupledStep machine other state (.first event)
        (emitted.map .inl) (next, state.2)
  | second
      (event : Event')
      (next : State')
      (emitted : List Obs')
      (taken : other.step? state.2 event = some (next, emitted)) :
      CoupledStep machine other state (.second event)
        (emitted.map .inr) (state.1, next)
  | both
      (event : Event)
      (called : Event')
      (next : State)
      (answer : State')
      (emitted : List Obs)
      (answered : List Obs')
      (taken : machine.step? state.1 event = some (next, emitted))
      (joined : other.step? state.2 called = some (answer, answered)) :
      CoupledStep machine other state (.both event called)
        (emitted.map .inl ++ answered.map .inr) (next, answer)

variable
  {machine : Machine State Event Obs}
  {other : Machine State' Event' Obs'}

/-- Coupled machines take only the listed steps. -/
theorem CoupledStep.of_step?
    {state next : State × State'}
    {event : Coupled Event Event'}
    {emitted : List (Obs ⊕ Obs')}
    (taken :
      (machine.couple other).step? state event = some (next, emitted)) :
    CoupledStep machine other state event emitted next := by
  cases event with
  | first event =>
      obtain ⟨⟨next, seen⟩, moved, shape⟩ := Option.map_eq_some_iff.mp taken
      cases shape
      exact .first event next seen moved
  | second event =>
      obtain ⟨⟨next, seen⟩, moved, shape⟩ := Option.map_eq_some_iff.mp taken
      cases shape
      exact .second event next seen moved
  | both event called =>
      obtain ⟨⟨next, seen⟩, moved, rest⟩ := Option.bind_eq_some_iff.mp taken
      obtain ⟨⟨answer, answered⟩, joined, shape⟩ :=
        Option.map_eq_some_iff.mp rest
      cases shape
      exact .both event called next answer seen answered moved joined

/-- What is possible for both depends on what is possible for each of them. -/
theorem isSome_couple_step?
    (state next : State × State')
    (first : next.1 = state.1)
    (second :
      ∀ event,
        (other.step? next.2 event).isSome =
          (other.step? state.2 event).isSome)
    (event : Coupled Event Event') :
    ((machine.couple other).step? next event).isSome =
      ((machine.couple other).step? state event).isSome := by
  cases event with
  | first event =>
      simp [couple, first]
  | second event =>
      simp [couple, second event]
  | both event called =>
      simp only [couple, first]
      cases machine.step? state.1 event with
      | none =>
          rfl
      | some result =>
          simp [second called]

end Machine

/-! ## What each machine shows -/

/-- What the first of two machines shows. -/
def firsts (observed : List (Obs ⊕ Obs')) : List Obs :=
  observed.filterMap Sum.getLeft?

/-- What the second of two machines shows. -/
def seconds (observed : List (Obs ⊕ Obs')) : List Obs' :=
  observed.filterMap Sum.getRight?

section Records

variable (early late : List (Obs ⊕ Obs'))

@[simp] theorem firsts_append :
    firsts (early ++ late) = firsts early ++ firsts late :=
  List.filterMap_append

@[simp] theorem seconds_append :
    seconds (early ++ late) = seconds early ++ seconds late :=
  List.filterMap_append

@[simp] theorem firsts_map_inl (seen : List Obs) :
    firsts (seen.map (.inl : Obs → Obs ⊕ Obs')) = seen := by
  simp [firsts, List.filterMap_map, Function.comp_def]

@[simp] theorem firsts_map_inr (seen : List Obs') :
    firsts (seen.map (.inr : Obs' → Obs ⊕ Obs')) = [] := by
  simp [firsts, List.filterMap_map, Function.comp_def]

@[simp] theorem seconds_map_inl (seen : List Obs) :
    seconds (seen.map (.inl : Obs → Obs ⊕ Obs')) = [] := by
  simp [seconds, List.filterMap_map, Function.comp_def]

@[simp] theorem seconds_map_inr (seen : List Obs') :
    seconds (seen.map (.inr : Obs' → Obs ⊕ Obs')) = seen := by
  simp [seconds, List.filterMap_map, Function.comp_def]

@[simp] theorem firsts_cons_inl (seen : Obs) :
    firsts (.inl seen :: late) = seen :: firsts late :=
  rfl

@[simp] theorem firsts_cons_inr (seen : Obs') :
    firsts (.inr seen :: late) = firsts late :=
  rfl

@[simp] theorem seconds_cons_inl (seen : Obs) :
    seconds (.inl seen :: late) = seconds late :=
  rfl

@[simp] theorem seconds_cons_inr (seen : Obs') :
    seconds (.inr seen :: late) = seen :: seconds late :=
  rfl

end Records

@[simp] theorem mem_firsts
    {observed : List (Obs ⊕ Obs')}
    {seen : Obs} :
    seen ∈ firsts observed ↔ .inl seen ∈ observed := by
  simp [firsts]

@[simp] theorem mem_seconds
    {observed : List (Obs ⊕ Obs')}
    {seen : Obs'} :
    seen ∈ seconds observed ↔ .inr seen ∈ observed := by
  simp [seconds]

/-! ## Each machine alone -/

section Alone

variable
  {machine : Machine State Event Obs}
  {other : Machine State' Event' Obs'}
  {allowed : State × State' → Coupled Event Event' → Prop}
  {observed : List (Obs ⊕ Obs')}
  {state : State × State'}

/-- The step of the first machine in a coupled step. -/
def Coupled.first? : Coupled Event Event' → Option Event
  | .first event | .both event _ => some event
  | .second _ => none

/-- A coupled run contains a run of the first machine. -/
theorem Machine.ReachesBy.firsts
    {permitted : State → Event → Prop}
    (permits :
      ∀ {state event own},
        allowed state event →
        event.first? = some own →
        permitted state.1 own)
    (reached : (machine.couple other).ReachesBy allowed observed state) :
    machine.ReachesBy permitted (Concurrency.firsts observed) state.1 := by
  refine reached.project Prod.fst Sum.getLeft? rfl ?_
  intro observed emitted state next event _ _ allows taken
  cases CoupledStep.of_step? taken with
  | first event next emitted moved =>
      refine Or.inr ⟨event, permits allows rfl, moved.trans ?_⟩
      exact congrArg (fun seen => some (next, seen))
        (firsts_map_inl emitted).symm
  | second event next emitted moved =>
      exact Or.inl ⟨rfl, firsts_map_inr emitted⟩
  | both event called next answer emitted answered moved joined =>
      refine Or.inr ⟨event, permits allows rfl, ?_⟩
      have shown :
          Concurrency.firsts
              (emitted.map (.inl : Obs → Obs ⊕ Obs') ++
                answered.map .inr) =
            emitted := by
        simp
      exact moved.trans (congrArg (fun seen => some (next, seen)) shown.symm)

/-- A coupled run contains a run of the second machine. -/
theorem Machine.ReachesBy.seconds
    (reached : (machine.couple other).ReachesBy allowed observed state) :
    other.Reaches (Concurrency.seconds observed) state.2 := by
  refine reached.project Prod.snd Sum.getRight? rfl ?_
  intro observed emitted state next event _ _ allows taken
  cases CoupledStep.of_step? taken with
  | first event next emitted moved =>
      exact Or.inl ⟨rfl, seconds_map_inl emitted⟩
  | second event next emitted moved =>
      refine Or.inr ⟨event, trivial, moved.trans ?_⟩
      exact congrArg (fun seen => some (next, seen))
        (seconds_map_inr emitted).symm
  | both event called next answer emitted answered moved joined =>
      refine Or.inr ⟨called, trivial, ?_⟩
      have shown :
          Concurrency.seconds
              (emitted.map (.inl : Obs → Obs ⊕ Obs') ++
                answered.map .inr) =
            answered := by
        simp
      exact joined.trans
        (congrArg (fun seen => some (answer, seen)) shown.symm)

end Alone

end Concurrency
