import ConcLogger.Async.Invariant

namespace ConcLogger.Async

open Concurrency

/-!
# What has been written

The record of a run lists the writes at each position and the entries whose
`fetch_sub` the worker has run.  `Delivered` ties both to what the queue has
handed out: settled entries have been written everywhere, and at most the
current entry has been written at some positions only.
-/

variable {Thread : Type}

/-! ## Projections of the record -/

/-- The entry of a write at a position. -/
@[simp] def Obs.wrote? (position : Nat) :
    Obs Thread → Option (Item Thread)
  | .wrote written item => if written = position then some item else none
  | _ => none

/-- The entry of a `fetch_sub` of the worker. -/
@[simp] def Obs.settled? : Obs Thread → Option (Item Thread)
  | .settled item => some item
  | _ => none

/-- The entries written through `sinks_[position]`, in order. -/
def written
    (position : Nat)
    (observed : List (Obs Thread)) :
    List (Item Thread) :=
  observed.filterMap (Obs.wrote? position)

/-- The entries whose `fetch_sub` the worker has run, in order. -/
def settled (observed : List (Obs Thread)) : List (Item Thread) :=
  observed.filterMap Obs.settled?

section Projections

variable (position : Nat) (first second : List (Obs Thread))

@[simp] theorem written_append :
    written position (first ++ second) =
      written position first ++ written position second :=
  List.filterMap_append

@[simp] theorem settled_append :
    settled (first ++ second) = settled first ++ settled second :=
  List.filterMap_append

@[simp] theorem written_nil :
    written position ([] : List (Obs Thread)) = [] :=
  rfl

@[simp] theorem settled_nil :
    settled ([] : List (Obs Thread)) = [] :=
  rfl

@[simp] theorem written_cons
    (seen : Obs Thread)
    (rest : List (Obs Thread)) :
    written position (seen :: rest) =
      (seen.wrote? position).toList ++ written position rest :=
  filterMap_cons_eq_append (Obs.wrote? position) seen rest

@[simp] theorem settled_cons
    (seen : Obs Thread)
    (rest : List (Obs Thread)) :
    settled (seen :: rest) =
      seen.settled?.toList ++ settled rest :=
  filterMap_cons_eq_append Obs.settled? seen rest

@[simp] theorem written_map_queue
    (seen : List (Queue.Obs (DrainLoop.Party Thread) LogEntry)) :
    written position (seen.map .queue) = [] :=
  filterMap_map_queue (Obs.wrote? position) (fun _ => rfl) seen

@[simp] theorem settled_map_queue
    (seen : List (Queue.Obs (DrainLoop.Party Thread) LogEntry)) :
    settled (seen.map .queue) = [] :=
  filterMap_map_queue Obs.settled? (fun _ => rfl) seen

@[simp] theorem written_settling
    (state : State Thread) :
    written position state.settling = [] :=
  filterMap_settling (Obs.wrote? position) (fun _ => rfl) state

@[simp] theorem settled_settling
    (state : State Thread) :
    settled state.settling = state.current?.toList := by
  unfold State.settling
  cases state.current? <;> rfl

end Projections

/-! ## Settled and unsettled entries -/

/-- Entries handed out whose `fetch_sub` the worker has not run yet. -/
def State.unsettled (state : State Thread) : List (Item Thread) :=
  if state.stage = .notifying then
    state.core.outstanding.tail
  else
    state.core.outstanding

/-- What is unsettled depends on the core and on the worker's stage. -/
theorem State.unsettled_congr
    {state next : State Thread}
    (core : next.core = state.core)
    (stage : next.stage = state.stage) :
    next.unsettled = state.unsettled := by
  simp only [State.unsettled, core, stage]

/-- The unsettled entry that has been written at a position, if there is one. -/
def State.writtenAhead
    (state : State Thread)
    (position : Nat) :
    List (Item Thread) :=
  match state.stage with
  | .dispatching todo =>
      if position ∈ todo then [] else state.current?.toList
  | .settling =>
      state.current?.toList
  | .ready | .notifying =>
      []

section Steps

variable
  [DecidableEq Thread]
  {config : LoggerConfig}
  {state next : State Thread}
  {emitted : List (Obs Thread)}

/-- A client outside the queue settles and writes nothing. -/
theorem ClientStep.settles_nothing
    {thread : Thread}
    (step : ClientStep config state thread emitted next) :
    settled emitted = [] ∧
      ∀ position, written position emitted = [] := by
  cases step <;> simp

/-- Steps of clients and of the queue leave the worker's entry alone. -/
theorem ClientStep.stage_eq
    {thread : Thread}
    (step : ClientStep config state thread emitted next) :
    next.stage = state.stage ∧ next.current? = state.current? := by
  have stage : next.stage = state.stage := by
    cases step <;> rfl
  refine ⟨stage, ?_⟩
  rcases step.core_cases with ⟨same, _⟩ | ⟨called, owner, taken⟩
  · exact State.current?_congr (by rw [same]) (by rw [same])
  · obtain ⟨inner, isInner⟩ :=
      DrainLoop.Event.exists_shared?
        (DrainLoop.Event.ne_worker_of_client owner)
    obtain ⟨_, control, batch⟩ :=
      DrainLoop.State.step?_of_shared? isInner taken
    exact State.current?_congr control batch

/-- A step that is not the worker's own adds what was handed out. -/
private theorem unsettled_of_core
    (linked : Linked state)
    {called : DrainLoop.Event Thread LogEntry}
    {core : DrainLoop.State Thread LogEntry}
    {seen : List (Queue.Obs (DrainLoop.Party Thread) LogEntry)}
    (coreLinked : DrainLoop.Linked state.core)
    (other : called ≠ .worker)
    (taken : state.core.step? called = some (core, seen))
    (moved : next.core = core)
    (stage : next.stage = state.stage) :
    next.unsettled = state.unsettled ++ Queue.handed seen := by
  subst moved
  have nothing : state.core.consumed called = [] := by
    cases called with
    | worker =>
        exact (other rfl).elim
    | _ =>
        rfl
  have grows :=
    (DrainLoop.Step.of_step? taken).outstanding_eq coreLinked
  rw [nothing, List.nil_append] at grows
  unfold State.unsettled
  rw [stage, grows]
  split
  · rename_i notifying
    obtain ⟨item, current⟩ := linked.stage (by simp [notifying])
    rw [State.outstanding_of_current? current]
    rfl
  · rfl

/-- The worker's own step takes the consumed entry off those outstanding. -/
private theorem outstanding_of_worker
    {core : DrainLoop.State Thread LogEntry}
    {seen : List (Queue.Obs (DrainLoop.Party Thread) LogEntry)}
    (coreLinked : DrainLoop.Linked state.core)
    (taken : state.core.step? .worker = some (core, seen)) :
    seen = [] ∧
      state.core.outstanding =
        state.core.consumed .worker ++ core.outstanding := by
  have step := DrainLoop.Step.of_step? taken
  obtain ⟨_, _, rfl⟩ := step.clients_of_worker
  refine ⟨rfl, ?_⟩
  simpa [Queue.handed, Queue.batches] using
    (step.outstanding_eq coreLinked).symm

/-- What is unsettled shrinks by what is settled and grows by a swap. -/
theorem Step.unsettled_eq
    {event : Event Thread}
    (linked : Linked state)
    (coreLinked : DrainLoop.Linked state.core)
    (step : Step config state event emitted next) :
    settled emitted ++ next.unsettled =
      state.unsettled ++ Queue.handed (trace emitted) := by
  have nothingHanded :
      Queue.handed
        ([] : List (Queue.Obs (DrainLoop.Party Thread) LogEntry)) =
        [] :=
    rfl
  cases step with
  | client thread emitted next step =>
      rw [step.settles_nothing.1, List.nil_append]
      rcases step.core_cases with
        ⟨same, silent⟩ | ⟨called, owner, taken⟩
      · rw [State.unsettled_congr same step.stage_eq.1, silent,
          nothingHanded, List.append_nil]
      · exact unsettled_of_core linked coreLinked
          (DrainLoop.Event.ne_worker_of_client owner) taken rfl
          step.stage_eq.1
  | worker event emitted next isWorker step =>
      cases step with
      | move core seen stage nothing taken =>
          obtain ⟨rfl, consumed⟩ :=
            outstanding_of_worker coreLinked taken
          rw [State.consumed_of_no_current nothing] at consumed
          simp [State.unsettled, stage, consumed, nothingHanded]
      | dispatch item stage | write position todo item stage
      | join stage =>
          simp [State.unsettled, stage, nothingHanded]
      | settle core seen stage more taken =>
          obtain ⟨item, current⟩ := linked.stage (by simp [stage])
          obtain ⟨rfl, consumed⟩ :=
            outstanding_of_worker coreLinked taken
          rw [State.consumed_of_current? current] at consumed
          simp [State.unsettled, stage, consumed, current,
            nothingHanded]
      | settleLast stage last =>
          obtain ⟨item, current⟩ := linked.stage (by simp [stage])
          have front := State.outstanding_of_current? current
          simp only [settled_settling, current, Option.toList_some,
            State.unsettled, stage, trace_settling, nothingHanded]
          simpa using front.symm
      | notify core seen stage taken =>
          obtain ⟨item, current⟩ := linked.stage (by simp [stage])
          obtain ⟨rfl, consumed⟩ :=
            outstanding_of_worker coreLinked taken
          rw [State.consumed_of_current? current] at consumed
          simp [State.unsettled, stage, consumed, nothingHanded]
  | inner event called core seen isCore taken =>
      have other := Event.ne_worker_of_core? isCore
      have grows :
          ({ state with core := core } : State Thread).unsettled =
            state.unsettled ++ Queue.handed seen :=
        unsettled_of_core linked coreLinked other taken rfl rfl
      simpa using grows
  | log | flush | destroy | wake =>
      simp only [settled_cons, settled_nil, trace_cons, trace_nil,
        Obs.settled?, Obs.queue?, Option.toList_none,
        List.nil_append, nothingHanded, List.append_nil]
      exact State.unsettled_congr rfl rfl

/-- Iterations of the parallel loop that remain are iterations of the loop. -/
def TodoBounded
    (config : LoggerConfig)
    (state : State Thread) : Prop :=
  ∀ todo, state.stage = .dispatching todo → todo ⊆ config.dispatch

/-- Every step keeps the remaining iterations within the loop. -/
theorem TodoBounded.step
    {event : Event Thread}
    (bounded : TodoBounded config state)
    (step : Step config state event emitted next) :
    TodoBounded config next := by
  cases step with
  | client thread emitted next step =>
      unfold TodoBounded
      rw [step.stage_eq.1]
      exact bounded
  | worker event emitted next isWorker step =>
      cases step with
      | dispatch item stage =>
          intro todo shape
          cases shape
          exact Finset.Subset.refl _
      | write position todo item stage =>
          intro rest shape
          cases shape
          exact (Finset.erase_subset _ _).trans (bounded todo stage)
      | move =>
          exact bounded
      | join | settle | settleLast | notify =>
          intro todo shape
          cases shape
  | _ =>
      exact bounded

/-- Writes run ahead of the settled entries by at most the current entry. -/
theorem Step.written_eq
    {event : Event Thread}
    (step : Step config state event emitted next)
    {position : Nat}
    (inside : position < config.sinkCount) :
    state.writtenAhead position ++ written position emitted =
      settled emitted ++ next.writtenAhead position := by
  cases step with
  | client thread emitted next step =>
      obtain ⟨stage, current⟩ := step.stage_eq
      simp [State.writtenAhead, step.settles_nothing, stage, current]
  | worker event emitted next isWorker step =>
      cases step with
      | move core seen stage =>
          simp [State.writtenAhead, stage]
      | dispatch item stage =>
          simp [State.writtenAhead, stage, inside]
      | write chosen todo item stage current remains =>
          by_cases same : chosen = position
          · subst same
            have wrote :
                written chosen [Obs.wrote chosen item] = [item] := by
              simp
            simp only [State.writtenAhead, stage, remains, wrote,
              Finset.mem_erase, ne_eq, not_true_eq_false, false_and,
              if_true, if_false]
            change [] ++ [item] = [] ++ state.current?.toList
            rw [current]
            rfl
          · have wrote :
                written position [Obs.wrote chosen item] = [] := by
              simp [same]
            have different : position ≠ chosen := fun equal =>
              same equal.symm
            simp only [State.writtenAhead, stage, wrote,
              Finset.mem_erase, ne_eq, different, not_false_eq_true,
              true_and, List.append_nil]
            rfl
      | join stage =>
          simp [State.writtenAhead, stage, State.current?]
      | settle core seen stage =>
          simp [State.writtenAhead, stage]
      | settleLast stage =>
          simp [State.writtenAhead, stage]
      | notify core seen stage =>
          simp [State.writtenAhead, stage]
  | inner event called core seen isCore taken =>
      have other := Event.ne_worker_of_core? isCore
      obtain ⟨inner, isInner⟩ := DrainLoop.Event.exists_shared? other
      obtain ⟨_, control, batch⟩ :=
        DrainLoop.State.step?_of_shared? isInner taken
      have current :
          ({ state with core := core } : State Thread).current? =
            state.current? :=
        State.current?_congr control batch
      simp [State.writtenAhead, current]
  | _ =>
      simp [State.writtenAhead, State.current?]

/-- Nothing is written at positions without a sink. -/
theorem Step.written_outside
    {event : Event Thread}
    (bounded : TodoBounded config state)
    (step : Step config state event emitted next)
    {position : Nat}
    (outside : config.sinkCount ≤ position) :
    written position emitted = [] := by
  cases step with
  | client thread emitted next step =>
      exact step.settles_nothing.2 position
  | worker event emitted next isWorker step =>
      cases step with
      | write chosen todo item stage current remains =>
          have inside :=
            LoggerConfig.mem_dispatch.mp (bounded todo stage remains)
          have different : chosen ≠ position :=
            Nat.ne_of_lt (Nat.lt_of_lt_of_le inside outside)
          simp [different]
      | _ =>
          simp
  | _ =>
      simp

end Steps

/-- Record, worker and queue agree on what has been delivered. -/
structure Delivered
    (config : LoggerConfig)
    (observed : List (Obs Thread))
    (state : State Thread) : Prop where
  handed :
    Queue.handed (trace observed) =
      settled observed ++ state.unsettled
  inside :
    ∀ position,
      position < config.sinkCount →
      written position observed =
        settled observed ++ state.writtenAhead position
  outside :
    ∀ position,
      config.sinkCount ≤ position →
      written position observed = []

namespace Delivered

variable
  [DecidableEq Thread]
  {config : LoggerConfig}
  {allowed : State Thread → Event Thread → Prop}
  {observed emitted : List (Obs Thread)}
  {state next : State Thread}

/-- Every step keeps record, worker and queue in agreement. -/
theorem step
    {event : Event Thread}
    (delivered : Delivered config observed state)
    (linked : Linked state)
    (coreLinked : DrainLoop.Linked state.core)
    (bounded : TodoBounded config state)
    (step : Step config state event emitted next) :
    Delivered config (observed ++ emitted) next where
  handed := by
    rw [trace_append, Queue.handed_append, delivered.handed,
      settled_append, List.append_assoc, List.append_assoc,
      step.unsettled_eq linked coreLinked]
  inside := by
    intro position inside
    rw [written_append, delivered.inside position inside,
      settled_append, List.append_assoc, List.append_assoc,
      step.written_eq inside]
  outside := by
    intro position outside
    rw [written_append, delivered.outside position outside,
      step.written_outside bounded outside, List.append_nil]

/-- In every reachable state record, worker and queue agree. -/
theorem of_reaches
    (reached :
      (machine Thread config).ReachesBy allowed observed state) :
    Delivered config observed state := by
  have both :
      Delivered config observed state ∧ TodoBounded config state := by
    refine reached.invariant
      (fun observed state =>
        Delivered config observed state ∧ TodoBounded config state)
      ⟨?_, ?_⟩ ?_
    · exact {
        handed := rfl
        inside := fun _ _ => rfl
        outside := fun _ _ => rfl
      }
    · intro todo shape
      cases shape
    · intro observed emitted state next event before holds _ taken
      have step := Step.of_step? taken
      exact ⟨holds.1.step (Linked.of_reaches before)
          (DrainLoop.Linked.of_reaches (reaches_core before))
          holds.2 step,
        holds.2.step step⟩
  exact both.1

end Delivered

section Prefixes

variable
  {config : LoggerConfig}
  {observed : List (Obs Thread)}
  {state : State Thread}

/-- At most the current entry is written ahead. -/
theorem State.writtenAhead_eq
    (state : State Thread)
    (position : Nat) :
    state.writtenAhead position = [] ∨
      state.writtenAhead position = state.current?.toList := by
  unfold State.writtenAhead
  split
  · split
    · exact Or.inl rfl
    · exact Or.inr rfl
  · exact Or.inr rfl
  · exact Or.inl rfl
  · exact Or.inl rfl

/-- What is written at a position is a prefix of what the queue handed out. -/
theorem Delivered.written_prefix_handed
    (delivered : Delivered config observed state)
    (linked : Linked state)
    (position : Nat) :
    written position observed <+: Queue.handed (trace observed) := by
  by_cases inside : position < config.sinkCount
  · rw [delivered.inside position inside, delivered.handed,
      List.prefix_append_right_inj]
    cases stage : state.stage with
    | ready | notifying =>
        simp [State.writtenAhead, stage]
    | dispatching todo | settling =>
        obtain ⟨item, current⟩ := linked.stage (by simp [stage])
        have front := State.outstanding_of_current? current
        have isPrefix : [item] <+: state.unsettled := by
          refine ⟨state.core.outstanding.tail, ?_⟩
          simpa [State.unsettled, stage] using front.symm
        rcases state.writtenAhead_eq position with ahead | ahead
        · simp [ahead]
        · simpa [ahead, current] using isPrefix
  · rw [delivered.outside position (Nat.le_of_not_lt inside)]
    exact List.nil_prefix

/-- Of two positions one is at most one write behind the other. -/
theorem Delivered.written_prefix_written
    (delivered : Delivered config observed state)
    {position other : Nat}
    (inside : position < config.sinkCount)
    (otherInside : other < config.sinkCount) :
    (written position observed <+: written other observed ∧
        (written other observed).length ≤
          (written position observed).length + 1) ∨
      (written other observed <+: written position observed ∧
        (written position observed).length ≤
          (written other observed).length + 1) := by
  rw [delivered.inside position inside,
    delivered.inside other otherInside]
  simp only [List.prefix_append_right_inj, List.length_append]
  have atMostOne : state.current?.toList.length ≤ 1 := by
    cases state.current? <;> simp
  rcases state.writtenAhead_eq position with ahead | ahead <;>
    rcases state.writtenAhead_eq other with otherAhead | otherAhead <;>
    rw [ahead, otherAhead]
  · exact Or.inl ⟨List.prefix_refl _, Nat.le_succ _⟩
  · exact Or.inl
      ⟨List.nil_prefix, Nat.add_le_add_left atMostOne _⟩
  · exact Or.inr
      ⟨List.nil_prefix, Nat.add_le_add_left atMostOne _⟩
  · exact Or.inl ⟨List.prefix_refl _, Nat.le_succ _⟩

end Prefixes

/--
Entries are written at every position at most once, in the order of insertion
and without gaps but for evicted entries, and all positions are within one
write of each other.
-/
theorem entries_are_delivered_once_in_order
    [DecidableEq Thread]
    {config : LoggerConfig}
    {observed : List (Obs Thread)}
    {state : State Thread}
    (reached : (machine Thread config).Reaches observed state) :
    (∀ position,
      (written position observed).Nodup ∧
        (written position observed).Sublist
          (Queue.inserted (trace observed)) ∧
        (written position observed).Pairwise Queue.Item.Earlier ∧
        ∀ first last,
          [first, last].Sublist (Queue.inserted (trace observed)) →
          first ∉ Queue.evicted (trace observed) →
          last ∈ written position observed →
          first ∈ written position observed) ∧
      ∀ position other,
        position < config.sinkCount →
        other < config.sinkCount →
        (written position observed <+: written other observed ∧
            (written other observed).length ≤
              (written position observed).length + 1) ∨
          (written other observed <+: written position observed ∧
            (written position observed).length ≤
              (written other observed).length + 1) := by
  have delivered := Delivered.of_reaches reached
  have inQueue := reaches_queue reached
  have conserved := Queue.Conserved.of_reaches inQueue
  have stamped := Queue.Stamped.of_reaches inQueue
  refine ⟨?_, fun position other inside otherInside =>
    delivered.written_prefix_written inside otherInside⟩
  intro position
  have isPrefix :
      written position observed <+:
        survivors (Queue.inserted (trace observed))
          (Queue.evicted (trace observed)) := by
    rw [← conserved.contents]
    exact (delivered.written_prefix_handed
      (Linked.of_reaches reached) position).trans
        (List.prefix_append _ _)
  have isSublist :
      (written position observed).Sublist
        (Queue.inserted (trace observed)) :=
    isPrefix.sublist.trans (survivors_sublist _ _)
  have distinct := conserved.inserted_nodup stamped
  refine ⟨isSublist.nodup distinct, isSublist, ?_, ?_⟩
  · exact stamped.ordered.sublist (isSublist.trans conserved.order)
  · intro first last ordered kept isWritten
    have lastKept :=
      (mem_survivors.mp (isPrefix.subset isWritten)).2
    exact mem_of_pair_sublist
      ((survivors_sublist _ _).nodup distinct) isPrefix
      (pair_sublist_survivors ordered kept lastKept) isWritten

/--
Two sinks and capacity one: the first entry is evicted by the second, which
has been written at one of the two positions.
-/
theorem entries_are_delivered_once_in_order_after_eviction :
    ∃ (observed : List (Obs (Fin 1)))
      (state : State (Fin 1)),
      (machine (Fin 1)
          { module := "net"
            sinkCount := 2
            policy := {
              queueCapacity := 1
              overflowPolicy := .dropOldest } }).Reaches
          observed state ∧
        ((written 0 observed).map fun item => item.value.message) =
          ["second"] ∧
        written 1 observed = [] ∧
        (written 0 observed).Nodup ∧
        written 1 observed <+: written 0 observed := by
  obtain ⟨observed, state, reached, feature⟩ :=
    (machine (Fin 1)
      { module := "net"
        sinkCount := 2
        policy := {
          queueCapacity := 1
          overflowPolicy := .dropOldest } }).exists_reaches
      [.log 0 .warn "first" false ⟨0, ⟨0, 1, 1, false, 0, 0⟩⟩,
        .client 0, .advance (.client 0),
        .notifyOne (.client 0) .worker, .client 0, .client 0,
        .log 0 .error "second" false ⟨1, ⟨0, 1, 1, false, 0, 0⟩⟩,
        .client 0, .advance (.client 0),
        .notifyOne (.client 0) .worker, .client 0,
        .worker, .advance .worker, .advance .worker, .worker,
        .worker, .write 0]
      (fun observed _ =>
        ((written 0 observed).map fun item => item.value.message) ==
            ["second"] &&
          (written 1 observed).isEmpty)
      (by decide +kernel)
  simp only [Bool.and_eq_true, beq_iff_eq,
    List.isEmpty_iff] at feature
  refine ⟨observed, state, reached, feature.1, feature.2, ?_, ?_⟩
  · exact ((entries_are_delivered_once_in_order reached).1 0).1
  · rw [feature.2]
    exact List.nil_prefix

end ConcLogger.Async
