import Mathlib.Data.List.Basic
import Mathlib.Data.Option.Basic

namespace Concurrency

/-!
# Machines that are watched while they run

A concurrent program is modelled as a machine whose events choose which thread
moves next.  Each step returns the next state together with the observations
it makes visible, so the history of a run is kept outside the program's state.

`ReachesBy` collects the runs in which every step is allowed by a side
condition on the state and the event.  Invariants are proved once by
`ReachesBy.invariant`; `ReachesBy.project` transfers runs to a more abstract
machine along a view of the states and a view of the observations.
-/

/-- What one observation contributes to a projection of the record. -/
theorem filterMap_cons_eq_append
    {Seen Shown : Type}
    (view : Seen → Option Shown)
    (first : Seen)
    (rest : List Seen) :
    (first :: rest).filterMap view =
      (view first).toList ++ rest.filterMap view := by
  cases shown : view first with
  | none =>
      rw [List.filterMap_cons_none shown]
      rfl
  | some visible =>
      rw [List.filterMap_cons_some shown]
      rfl

/-- A deterministic step function driven by events that resolve all choices. -/
structure Machine (State Event Obs : Type) where
  init : State
  step? : State → Event → Option (State × List Obs)

namespace Machine

variable {State Event Obs : Type}

/-- Execute a list of events, collecting the observations in order. -/
def run?
    (machine : Machine State Event Obs) :
    State → List Event → Option (State × List Obs)
  | state, [] =>
      some (state, [])
  | state, event :: rest =>
      match machine.step? state event with
      | none =>
          none
      | some (next, emitted) =>
          match machine.run? next rest with
          | none =>
              none
          | some (final, later) =>
              some (final, emitted ++ later)

/-- What a list of events costs altogether. -/
def totalPrice (price : Event → Nat) : List Event → Nat
  | [] => 0
  | event :: rest => price event + totalPrice price rest

/-- Every step that the events take from a state is allowed. -/
def RunsBy
    (machine : Machine State Event Obs)
    (allowed : State → Event → Prop) :
    State → List Event → Prop
  | _, [] =>
      True
  | state, event :: rest =>
      allowed state event ∧
        match machine.step? state event with
        | none =>
            True
        | some (next, _) =>
            machine.RunsBy allowed next rest

/-- Runs of allowed steps can be checked by executing them. -/
instance decidableRunsBy
    (machine : Machine State Event Obs)
    (allowed : State → Event → Prop)
    [checkAllowed : ∀ state event, Decidable (allowed state event)] :
    ∀ state events,
      Decidable (machine.RunsBy allowed state events)
  | _, [] =>
      .isTrue trivial
  | state, event :: rest =>
      match taken : machine.step? state event with
      | none =>
          decidable_of_iff (allowed state event) (by
            simp [RunsBy, taken])
      | some (next, _) =>
          have := decidableRunsBy machine allowed next rest
          decidable_of_iff
            (allowed state event ∧ machine.RunsBy allowed next rest) (by
              simp [RunsBy, taken])

/--
The observations and states that a machine reaches from its initial state by
steps that are all allowed.
-/
inductive ReachesBy
    (machine : Machine State Event Obs)
    (allowed : State → Event → Prop) :
    List Obs → State → Prop where
  | init :
      ReachesBy machine allowed [] machine.init
  | step
      {observed emitted : List Obs}
      {state next : State}
      (event : Event)
      (before : ReachesBy machine allowed observed state)
      (permitted : allowed state event)
      (taken : machine.step? state event = some (next, emitted)) :
      ReachesBy machine allowed (observed ++ emitted) next

/-- Everything a machine reaches when no step is ruled out. -/
abbrev Reaches
    (machine : Machine State Event Obs) :
    List Obs → State → Prop :=
  machine.ReachesBy fun _ _ => True

namespace ReachesBy

variable
  {machine : Machine State Event Obs}
  {allowed : State → Event → Prop}
  {observed emitted : List Obs}
  {state final : State}

/-- A weaker side condition allows at least the same runs. -/
theorem mono
    {weaker : State → Event → Prop}
    (implies :
      ∀ {state event},
        allowed state event →
        weaker state event)
    (reached : machine.ReachesBy allowed observed state) :
    machine.ReachesBy weaker observed state := by
  induction reached with
  | init =>
      exact .init
  | step event _ permitted taken inductionHypothesis =>
      exact .step event inductionHypothesis
        (implies permitted) taken

/-- Runs of allowed steps are in particular runs. -/
theorem reaches
    (reached : machine.ReachesBy allowed observed state) :
    machine.Reaches observed state :=
  reached.mono fun _ => trivial

/-- A side condition that all steps from reached states meet allows all runs. -/
theorem restrict
    {stronger : State → Event → Prop}
    (meets :
      ∀ {observed emitted : List Obs}
        {state next : State} {event : Event},
        machine.ReachesBy allowed observed state →
        allowed state event →
        machine.step? state event = some (next, emitted) →
        stronger state event)
    (reached : machine.ReachesBy allowed observed state) :
    machine.ReachesBy stronger observed state := by
  induction reached with
  | init =>
      exact .init
  | step event before permitted taken inductionHypothesis =>
      exact .step event inductionHypothesis
        (meets before permitted taken) taken

/--
The invariant rule: what holds initially and is preserved by every allowed
step from a reached state holds of everything that is reached.
-/
theorem invariant
    (holds : List Obs → State → Prop)
    (initially : holds [] machine.init)
    (preserved :
      ∀ {observed emitted : List Obs}
        {state next : State} {event : Event},
        machine.ReachesBy allowed observed state →
        holds observed state →
        allowed state event →
        machine.step? state event = some (next, emitted) →
        holds (observed ++ emitted) next)
    (reached : machine.ReachesBy allowed observed state) :
    holds observed state := by
  induction reached with
  | init =>
      exact initially
  | step event before permitted taken inductionHypothesis =>
      exact preserved before inductionHypothesis permitted taken

/-- Executing allowed events continues a run. -/
theorem run
    {events : List Event}
    (reached : machine.ReachesBy allowed observed state)
    (permitted : machine.RunsBy allowed state events)
    (executed : machine.run? state events = some (final, emitted)) :
    machine.ReachesBy allowed (observed ++ emitted) final := by
  induction events generalizing observed emitted state with
  | nil =>
      simp only [run?, Option.some.injEq, Prod.mk.injEq] at executed
      obtain ⟨rfl, rfl⟩ := executed
      simpa using reached
  | cons event rest inductionHypothesis =>
      cases taken : machine.step? state event with
      | none =>
          simp [run?, taken] at executed
      | some result =>
          obtain ⟨next, first⟩ := result
          simp only [RunsBy, taken] at permitted
          cases continued : machine.run? next rest with
          | none =>
              simp [run?, taken, continued] at executed
          | some outcome =>
              obtain ⟨last, later⟩ := outcome
              simp only [run?, taken, continued, Option.some.injEq,
                Prod.mk.injEq] at executed
              obtain ⟨rfl, rfl⟩ := executed
              have continuation :=
                inductionHypothesis
                  (.step event reached permitted.1 taken)
                  permitted.2 continued
              simpa [List.append_assoc] using continuation

/--
The safety rule for the future: what allowed steps from reached states keep
still holds after every continuation of a run, and whatever the continuation
shows is what such steps show.
-/
theorem run_safe
    {events : List Event}
    (holds : List Obs → State → Prop)
    (shown : Obs → Prop)
    (preserved :
      ∀ {observed emitted : List Obs}
        {state next : State} {event : Event},
        machine.ReachesBy allowed observed state →
        holds observed state →
        allowed state event →
        machine.step? state event = some (next, emitted) →
        holds (observed ++ emitted) next ∧
          ∀ seen ∈ emitted, shown seen)
    (reached : machine.ReachesBy allowed observed state)
    (initially : holds observed state)
    (permitted : machine.RunsBy allowed state events)
    (executed : machine.run? state events = some (final, emitted)) :
    holds (observed ++ emitted) final ∧
      ∀ seen ∈ emitted, shown seen := by
  induction events generalizing observed emitted state with
  | nil =>
      simp only [run?, Option.some.injEq, Prod.mk.injEq] at executed
      obtain ⟨rfl, rfl⟩ := executed
      simpa using initially
  | cons event rest inductionHypothesis =>
      cases taken : machine.step? state event with
      | none =>
          simp [run?, taken] at executed
      | some result =>
          obtain ⟨next, first⟩ := result
          simp only [RunsBy, taken] at permitted
          cases continued : machine.run? next rest with
          | none =>
              simp [run?, taken, continued] at executed
          | some outcome =>
              obtain ⟨last, later⟩ := outcome
              simp only [run?, taken, continued, Option.some.injEq,
                Prod.mk.injEq] at executed
              obtain ⟨rfl, rfl⟩ := executed
              obtain ⟨kept, shownNow⟩ :=
                preserved reached initially permitted.1 taken
              obtain ⟨keptLater, shownLater⟩ :=
                inductionHypothesis
                  (.step event reached permitted.1 taken)
                  kept permitted.2 continued
              rw [List.append_assoc] at keptLater
              refine ⟨keptLater, ?_⟩
              intro seen isSeen
              rcases List.mem_append.mp isSeen with now | afterwards
              · exact shownNow seen now
              · exact shownLater seen afterwards

/--
The rule for amortised costs: if a step lowers the potential but for the price
of its event, the prices of a run bound its length.
-/
theorem length_le
    {events : List Event}
    (potential : State → Nat)
    (price : Event → Nat)
    (pays :
      ∀ {observed emitted : List Obs}
        {state next : State} {event : Event},
        machine.ReachesBy allowed observed state →
        allowed state event →
        machine.step? state event = some (next, emitted) →
        potential next + 1 ≤ potential state + price event)
    (reached : machine.ReachesBy allowed observed state)
    (permitted : machine.RunsBy allowed state events)
    (executed : machine.run? state events = some (final, emitted)) :
    events.length + potential final ≤
      potential state + totalPrice price events := by
  induction events generalizing observed emitted state with
  | nil =>
      simp only [run?, Option.some.injEq, Prod.mk.injEq] at executed
      obtain ⟨rfl, rfl⟩ := executed
      simp [totalPrice]
  | cons event rest inductionHypothesis =>
      cases taken : machine.step? state event with
      | none =>
          simp [run?, taken] at executed
      | some result =>
          obtain ⟨next, first⟩ := result
          simp only [RunsBy, taken] at permitted
          cases continued : machine.run? next rest with
          | none =>
              simp [run?, taken, continued] at executed
          | some outcome =>
              obtain ⟨last, later⟩ := outcome
              simp only [run?, taken, continued, Option.some.injEq,
                Prod.mk.injEq] at executed
              obtain ⟨rfl, rfl⟩ := executed
              have paid := pays reached permitted.1 taken
              have continuation :=
                inductionHypothesis
                  (.step event reached permitted.1 taken)
                  permitted.2 continued
              simp only [List.length_cons, totalPrice]
              omega

/--
The rule for bounded waiting: while the record stays quiet, `holds` is kept and
every counted event uses up some of what is left, so that what is left at the
beginning bounds the counted events.
-/
theorem countP_le
    {events : List Event}
    (counted : Event → Bool)
    (left : State → Nat)
    (holds : State → Prop)
    (quiet : Obs → Prop)
    (uses :
      ∀ {observed emitted : List Obs}
        {state next : State} {event : Event},
        machine.ReachesBy allowed observed state →
        holds state →
        allowed state event →
        machine.step? state event = some (next, emitted) →
        (∀ seen ∈ emitted, quiet seen) →
        holds next ∧ (counted event).toNat + left next ≤ left state)
    (reached : machine.ReachesBy allowed observed state)
    (initially : holds state)
    (permitted : machine.RunsBy allowed state events)
    (executed : machine.run? state events = some (final, emitted))
    (silent : ∀ seen ∈ emitted, quiet seen) :
    holds final ∧ events.countP counted + left final ≤ left state := by
  induction events generalizing observed emitted state with
  | nil =>
      simp only [run?, Option.some.injEq, Prod.mk.injEq] at executed
      obtain ⟨rfl, rfl⟩ := executed
      simpa using initially
  | cons event rest inductionHypothesis =>
      cases taken : machine.step? state event with
      | none =>
          simp [run?, taken] at executed
      | some result =>
          obtain ⟨next, first⟩ := result
          simp only [RunsBy, taken] at permitted
          cases continued : machine.run? next rest with
          | none =>
              simp [run?, taken, continued] at executed
          | some outcome =>
              obtain ⟨last, later⟩ := outcome
              simp only [run?, taken, continued, Option.some.injEq,
                Prod.mk.injEq] at executed
              obtain ⟨rfl, rfl⟩ := executed
              obtain ⟨kept, used⟩ :=
                uses reached initially permitted.1 taken fun seen now =>
                  silent seen (List.mem_append_left _ now)
              obtain ⟨keptLater, usedLater⟩ :=
                inductionHypothesis
                  (.step event reached permitted.1 taken) kept
                  permitted.2 continued fun seen afterwards =>
                    silent seen (List.mem_append_right _ afterwards)
              refine ⟨keptLater, ?_⟩
              rw [List.countP_cons]
              cases isCounted : counted event <;>
                simp [isCounted] at used ⊢ <;>
                omega

/--
The projection rule: a machine whose steps are matched, through a view of its
states and observations, by at most one step of another machine only shows
behaviour of that machine.
-/
theorem project
    {State' Event' Obs' : Type}
    {target : Machine State' Event' Obs'}
    {targetAllowed : State' → Event' → Prop}
    (view : State → State')
    (visible : Obs → Option Obs')
    (initially : view machine.init = target.init)
    (simulates :
      ∀ {observed emitted : List Obs}
        {state next : State} {event : Event},
        machine.ReachesBy allowed observed state →
        target.ReachesBy targetAllowed
          (observed.filterMap visible) (view state) →
        allowed state event →
        machine.step? state event = some (next, emitted) →
        (view next = view state ∧
            emitted.filterMap visible = []) ∨
          ∃ matching,
            targetAllowed (view state) matching ∧
              target.step? (view state) matching =
                some (view next, emitted.filterMap visible))
    (reached : machine.ReachesBy allowed observed state) :
    target.ReachesBy targetAllowed
      (observed.filterMap visible) (view state) := by
  induction reached with
  | init =>
      simpa [initially] using ReachesBy.init
  | step event before permitted taken inductionHypothesis =>
      rw [List.filterMap_append]
      rcases simulates before inductionHypothesis permitted taken with
        ⟨unchanged, silent⟩ | ⟨matching, matchingAllowed, matched⟩
      · simpa [unchanged, silent] using inductionHypothesis
      · exact .step matching inductionHypothesis
          matchingAllowed matched

end ReachesBy

/-- A checked finite run shows that a state with a decidable feature is reached. -/
theorem exists_reachesBy
    (machine : Machine State Event Obs)
    (allowed : State → Event → Prop)
    [∀ state event, Decidable (allowed state event)]
    (events : List Event)
    (feature : List Obs → State → Bool)
    (checked :
      (decide (machine.RunsBy allowed machine.init events) &&
        ((machine.run? machine.init events).map fun result =>
          feature result.2 result.1) == some true) = true) :
    ∃ observed state,
      machine.ReachesBy allowed observed state ∧
        feature observed state = true := by
  simp only [Bool.and_eq_true, decide_eq_true_eq, beq_iff_eq,
    Option.map_eq_some_iff] at checked
  obtain ⟨permitted, ⟨final, emitted⟩, executed, holds⟩ := checked
  exact ⟨emitted, final,
    by simpa using ReachesBy.init.run permitted executed, holds⟩

/-- A side condition that always holds is met by every run. -/
theorem runsBy_of_forall
    {machine : Machine State Event Obs}
    {allowed : State → Event → Prop}
    (always : ∀ state event, allowed state event)
    (state : State)
    (events : List Event) :
    machine.RunsBy allowed state events := by
  induction events generalizing state with
  | nil =>
      trivial
  | cons event rest inductionHypothesis =>
      refine ⟨always state event, ?_⟩
      cases taken : machine.step? state event with
      | none =>
          trivial
      | some result =>
          exact inductionHypothesis result.1

/-- The same check for runs without a side condition. -/
theorem exists_reaches
    (machine : Machine State Event Obs)
    (events : List Event)
    (feature : List Obs → State → Bool)
    (checked :
      ((machine.run? machine.init events).map fun result =>
        feature result.2 result.1) = some true) :
    ∃ observed state,
      machine.Reaches observed state ∧
        feature observed state = true := by
  obtain ⟨⟨final, emitted⟩, executed, holds⟩ :=
    Option.map_eq_some_iff.mp checked
  have permitted :
      machine.RunsBy (fun _ _ => True) machine.init events :=
    runsBy_of_forall (fun _ _ => trivial) machine.init events
  exact ⟨emitted, final,
    by simpa using ReachesBy.init.run permitted executed, holds⟩

/-! ## Watching something else -/

/-- The same machine with other observations, read off its steps. -/
def watch
    {Shown : Type}
    (machine : Machine State Event Obs)
    (shown : State → Event → State → List Shown) :
    Machine State Event Shown where
  init := machine.init
  step? state event :=
    (machine.step? state event).map fun result =>
      (result.1, shown state event result.1)

section Watch

variable
  {Shown : Type}
  {machine : Machine State Event Obs}
  {allowed : State → Event → Prop}
  {shown : State → Event → State → List Shown}

/-- A step that is watched is a step. -/
theorem watch_step?
    {state next : State}
    {event : Event}
    {seen : List Shown}
    (taken : (machine.watch shown).step? state event = some (next, seen)) :
    seen = shown state event next ∧
      ∃ emitted, machine.step? state event = some (next, emitted) := by
  obtain ⟨⟨final, emitted⟩, stepped, shape⟩ := Option.map_eq_some_iff.mp taken
  cases shape
  exact ⟨rfl, emitted, stepped⟩

/-- What is reached when something else is watched is reached. -/
theorem ReachesBy.of_watch
    {state : State}
    {seen : List Shown}
    (reached : (machine.watch shown).ReachesBy allowed seen state) :
    ∃ observed, machine.ReachesBy allowed observed state := by
  induction reached with
  | init =>
      exact ⟨[], .init⟩
  | step event _ permitted taken inductionHypothesis =>
      obtain ⟨observed, before⟩ := inductionHypothesis
      obtain ⟨_, emitted, stepped⟩ := watch_step? taken
      exact ⟨observed ++ emitted, .step event before permitted stepped⟩

end Watch

/-! ## Allowed steps only -/

/-- The same machine without the steps that a side condition rules out. -/
def confine
    (machine : Machine State Event Obs)
    (allowed : State → Event → Prop)
    [∀ state event, Decidable (allowed state event)] :
    Machine State Event Obs where
  init := machine.init
  step? state event :=
    if allowed state event then machine.step? state event else none

section Confine

variable
  {machine : Machine State Event Obs}
  {allowed : State → Event → Prop}
  [∀ state event, Decidable (allowed state event)]

/-- A confined machine takes the allowed steps. -/
theorem confine_step?
    {state next : State}
    {event : Event}
    {emitted : List Obs} :
    (machine.confine allowed).step? state event = some (next, emitted) ↔
      allowed state event ∧
        machine.step? state event = some (next, emitted) := by
  simp [confine]

/-- What a confined machine reaches is reached by allowed steps. -/
theorem ReachesBy.of_confine
    {permitted : State → Event → Prop}
    {observed : List Obs}
    {state : State}
    (reached : (machine.confine allowed).ReachesBy permitted observed state) :
    machine.ReachesBy
      (fun state event => allowed state event ∧ permitted state event)
      observed state := by
  induction reached with
  | init =>
      exact .init
  | step event _ permitted taken inductionHypothesis =>
      obtain ⟨isAllowed, stepped⟩ := confine_step?.mp taken
      exact .step event inductionHypothesis ⟨isAllowed, permitted⟩ stepped

end Confine

end Machine

end Concurrency
