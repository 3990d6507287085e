import Mathlib.Algebra.GroupWithZero.Nat
import ConcLogger.Concurrency.Ledger
import ConcLogger.Queue.Wakeups

namespace ConcLogger.Queue

open Concurrency

/-!
# Conservation of items

The observations of a run record the order of insertions, evictions, refusals
and swaps.  Items are identified with the `push()` calls that brought them:
`Stamped` says that the stamps are fresh and grow along each producer, and
`Conserved` ties the record to the deque.
-/

variable {Thread T : Type}

/-! ## Projections of the record -/

namespace Obs

/-- The item of an insertion. -/
@[simp] def inserted? : Obs Thread T → Option (Item Thread T)
  | .inserted item => some item
  | _ => none

/-- The item of an eviction. -/
@[simp] def evicted? : Obs Thread T → Option (Item Thread T)
  | .evicted item => some item
  | _ => none

/-- The item of a refusal. -/
@[simp] def refused? : Obs Thread T → Option (Item Thread T)
  | .refused item => some item
  | _ => none

/-- The item and the result of a decided `push`. -/
@[simp] def decided? : Obs Thread T → Option (Item Thread T × Nat)
  | .decided item undelivered => some (item, undelivered)
  | _ => none

/-- The batch of a swap. -/
@[simp] def drained? : Obs Thread T → Option (List (Item Thread T))
  | .drained batch => some batch
  | _ => none

end Obs

/-- Inserted items, in insertion order. -/
def inserted (observed : List (Obs Thread T)) : List (Item Thread T) :=
  observed.filterMap Obs.inserted?

/-- Evicted items, in eviction order. -/
def evicted (observed : List (Obs Thread T)) : List (Item Thread T) :=
  observed.filterMap Obs.evicted?

/-- Refused items, in the order of their refusals. -/
def refused (observed : List (Obs Thread T)) : List (Item Thread T) :=
  observed.filterMap Obs.refused?

/-- Items whose `push` had its last critical section, with their results. -/
def decided (observed : List (Obs Thread T)) :
    List (Item Thread T × Nat) :=
  observed.filterMap Obs.decided?

/-- The batches handed out, in swap order. -/
def batches (observed : List (Obs Thread T)) :
    List (List (Item Thread T)) :=
  observed.filterMap Obs.drained?

/-- Everything handed out, batch after batch. -/
def handed (observed : List (Obs Thread T)) : List (Item Thread T) :=
  (batches observed).flatten

/-- The decided items without their results. -/
def decidedItems (observed : List (Obs Thread T)) :
    List (Item Thread T) :=
  (decided observed).map Prod.fst

section Append

variable (first second : List (Obs Thread T))

@[simp] theorem inserted_append :
    inserted (first ++ second) = inserted first ++ inserted second :=
  List.filterMap_append

@[simp] theorem evicted_append :
    evicted (first ++ second) = evicted first ++ evicted second :=
  List.filterMap_append

@[simp] theorem refused_append :
    refused (first ++ second) = refused first ++ refused second :=
  List.filterMap_append

@[simp] theorem decided_append :
    decided (first ++ second) = decided first ++ decided second :=
  List.filterMap_append

@[simp] theorem batches_append :
    batches (first ++ second) = batches first ++ batches second :=
  List.filterMap_append

@[simp] theorem handed_append :
    handed (first ++ second) = handed first ++ handed second := by
  simp [handed]

@[simp] theorem decidedItems_append :
    decidedItems (first ++ second) =
      decidedItems first ++ decidedItems second := by
  simp [decidedItems]

end Append

/-- A deciding thread carries its item. -/
theorem State.Deciding.undecided
    {state : State Thread T}
    {thread : Thread}
    {item : Item Thread T}
    (deciding : state.Deciding thread item) :
    (state.phase thread).undecided? = some item := by
  rcases deciding with ⟨policy, phase⟩ | ⟨phase, _⟩ <;>
    simp [phase, Phase.undecided?]

/-- Program order of two items: it binds items of one producer only. -/
def Item.Earlier (first second : Item Thread T) : Prop :=
  first.producer = second.producer → first.index < second.index

/-- Items listed in program order are pairwise distinct. -/
theorem nodup_of_pairwise_earlier
    {items : List (Item Thread T)}
    (ordered : items.Pairwise Item.Earlier) :
    items.Nodup := by
  refine List.Pairwise.imp ?_ ordered
  rintro first second earlier rfl
  exact Nat.lt_irrefl _ (earlier rfl)

/-! ## Stamps -/

/-- Stamps are fresh, and each producer decides its items in program order. -/
structure Stamped
    (observed : List (Obs Thread T))
    (state : State Thread T) : Prop where
  counted :
    ∀ item ∈ decidedItems observed,
      item.index < state.pushes item.producer
  undecided :
    ∀ thread item,
      (state.phase thread).undecided? = some item →
      item.producer = thread ∧
        item.index + 1 = state.pushes thread ∧
        ∀ earlier ∈ decidedItems observed, earlier.Earlier item
  ordered :
    (decidedItems observed).Pairwise Item.Earlier

namespace Stamped

variable
  {observed emitted : List (Obs Thread T)}
  {state next : State Thread T}

/-- Decided items are pairwise distinct. -/
theorem nodup
    (stamped : Stamped observed state) :
    (decidedItems observed).Nodup :=
  nodup_of_pairwise_earlier stamped.ordered

/-- Nothing is decided and no stamp is issued. -/
private theorem quiet
    (stamped : Stamped observed state)
    (pushes : next.pushes = state.pushes)
    (silent : decidedItems emitted = [])
    (phases :
      ∀ thread item,
        (next.phase thread).undecided? = some item →
        (state.phase thread).undecided? = some item) :
    Stamped (observed ++ emitted) next where
  counted := by
    simpa [silent, pushes] using stamped.counted
  undecided := by
    intro thread item pending
    simpa [silent, pushes] using
      stamped.undecided thread item (phases thread item pending)
  ordered := by
    simpa [silent] using stamped.ordered

variable [DecidableEq Thread]

/-- One thread moves without deciding anything. -/
private theorem move
    (stamped : Stamped observed state)
    (thread : Thread)
    (phase : Phase Thread T)
    (pushes : next.pushes = state.pushes)
    (silent : decidedItems emitted = [])
    (moved : next.phase = Function.update state.phase thread phase)
    (keeps :
      phase.undecided? = none ∨
        phase.undecided? = (state.phase thread).undecided?) :
    Stamped (observed ++ emitted) next := by
  apply stamped.quiet pushes silent
  rw [moved]
  refine forall_update
    (fun other (phase : Phase Thread T) =>
      ∀ item,
        phase.undecided? = some item →
        (state.phase other).undecided? = some item)
    (fun _ _ _ pending => pending) ?_
  intro item pending
  rcases keeps with gone | same
  · rw [gone] at pending
    cases pending
  · rw [← same]
    exact pending

/-- One thread decides its item. -/
private theorem decide_item
    (stamped : Stamped observed state)
    {thread : Thread}
    {item : Item Thread T}
    (phase : Phase Thread T)
    (pending : (state.phase thread).undecided? = some item)
    (pushes : next.pushes = state.pushes)
    (recorded : decidedItems emitted = [item])
    (moved : next.phase = Function.update state.phase thread phase)
    (finished : phase.undecided? = none) :
    Stamped (observed ++ emitted) next := by
  obtain ⟨producer, index, after⟩ :=
    stamped.undecided thread item pending
  refine {
    counted := ?_
    undecided := ?_
    ordered := ?_
  }
  · intro other member
    rw [decidedItems_append, recorded, List.mem_append,
      List.mem_singleton] at member
    rw [pushes]
    rcases member with old | rfl
    · exact stamped.counted other old
    · rw [producer, ← index]
      exact Nat.lt_succ_self _
  · rw [moved, pushes]
    refine forall_update
      (fun other (phase : Phase Thread T) =>
        ∀ waiting,
          phase.undecided? = some waiting →
          waiting.producer = other ∧
            waiting.index + 1 = state.pushes other ∧
            ∀ earlier ∈ decidedItems (observed ++ emitted),
              earlier.Earlier waiting)
      ?_ ?_
    · intro other different waiting stillPending
      obtain ⟨otherProducer, otherIndex, otherAfter⟩ :=
        stamped.undecided other waiting stillPending
      refine ⟨otherProducer, otherIndex, ?_⟩
      intro earlier member
      rw [decidedItems_append, recorded, List.mem_append,
        List.mem_singleton] at member
      rcases member with old | rfl
      · exact otherAfter earlier old
      · intro sameProducer
        rw [producer, otherProducer] at sameProducer
        exact (different sameProducer.symm).elim
    · intro waiting impossible
      rw [finished] at impossible
      cases impossible
  · rw [decidedItems_append, recorded]
    refine List.pairwise_append.mpr
      ⟨stamped.ordered, List.pairwise_singleton _ _, ?_⟩
    intro earlier member last isItem
    rw [List.mem_singleton] at isItem
    subst isItem
    exact after earlier member

/-- A `push` call issues the next stamp of its thread. -/
private theorem issue
    (stamped : Stamped observed state)
    (thread : Thread)
    (value : T)
    (policy : OverflowPolicy)
    (idle : state.phase thread = .idle) :
    Stamped observed (state.begin thread (.push value policy)) := by
  have grows :
      ∀ other,
        state.pushes other ≤
          Function.update state.pushes thread
            (state.pushes thread + 1) other := by
    intro other
    by_cases same : other = thread
    · subst same
      simp
    · simp [Function.update_of_ne same]
  refine {
    counted := ?_
    undecided := ?_
    ordered := stamped.ordered
  }
  · intro item member
    exact Nat.lt_of_lt_of_le (stamped.counted item member)
      (grows item.producer)
  · refine forall_update
      (fun other (phase : Phase Thread T) =>
        ∀ item,
          phase.undecided? = some item →
          item.producer = other ∧
            item.index + 1 =
              Function.update state.pushes thread
                (state.pushes thread + 1) other ∧
            ∀ earlier ∈ decidedItems observed, earlier.Earlier item)
      ?_ ?_
    · intro other different item pending
      rw [Function.update_of_ne different]
      exact stamped.undecided other item pending
    · intro item pending
      simp only [Phase.undecided?, Option.some.injEq] at pending
      subst pending
      refine ⟨rfl, by simp, ?_⟩
      intro earlier member sameProducer
      have counted := stamped.counted earlier member
      rw [sameProducer] at counted
      exact counted

/-- Every step keeps the stamps fresh. -/
theorem step
    {event : Event Thread T}
    (stamped : Stamped observed state)
    (step : Step state event emitted next) :
    Stamped (observed ++ emitted) next := by
  cases step with
  | call thread operation idle =>
      cases operation with
      | push value policy =>
          simpa using stamped.issue thread value policy idle
      | drain | stop | empty =>
          exact stamped.move thread _ rfl rfl rfl (Or.inl rfl)
  | refuse thread item deciding | insert thread item deciding =>
      refine stamped.decide_item _ deciding.undecided
        rfl rfl rfl ?_
      first
        | rfl
        | unfold State.afterInsert
          split <;> rfl
  | evict thread item oldest rest phase =>
      refine stamped.decide_item _
        (by simp [phase, Phase.undecided?]) rfl rfl rfl ?_
      unfold State.afterInsert
      split <;> rfl
  | block thread item deciding =>
      exact stamped.move thread _ rfl rfl rfl
        (Or.inr deciding.undecided.symm)
  | sleepNotFull thread item phase =>
      exact stamped.move thread _ rfl rfl rfl
        (Or.inr (by simp [phase, Phase.undecided?]))
  | undefined thread | notifyOne thread | drainBlock thread
  | exhaust thread | swap thread | sleepNotEmpty thread
  | drainNotify thread | stop thread | stopNotifyEmpty thread
  | stopNotifyFull thread | empty thread | returnPush thread
  | returnOther thread =>
      exact stamped.move thread _ rfl rfl rfl (Or.inl rfl)
  | wakeNotFull | wakeNotEmpty =>
      exact stamped.quiet rfl rfl (fun _ _ pending => pending)

/-- Every reachable state has fresh stamps. -/
theorem of_reaches
    {capacity : Nat}
    {allowed : State Thread T → Event Thread T → Prop}
    (reached :
      (machine Thread T capacity).ReachesBy allowed observed state) :
    Stamped observed state :=
  reached.invariant Stamped
    {
      counted := by simp [decidedItems, decided]
      undecided := by
        intro thread item pending
        cases pending
      ordered := by simp [decidedItems, decided]
    }
    (fun _ stamped _ taken => stamped.step (Step.of_step? taken))

end Stamped

/-! ## Conservation -/

section Conservation

section Insertion

variable
  (victim : Option (Item Thread T))
  (item : Item Thread T)
  (undelivered : Nat)

/-- What an insertion that evicts at most one item puts on record. -/
def insertion : List (Obs Thread T) :=
  victim.toList.map .evicted ++
    [.inserted item, .decided item undelivered]

@[simp] theorem inserted_insertion :
    inserted (insertion victim item undelivered) = [item] := by
  cases victim <;> rfl

@[simp] theorem evicted_insertion :
    evicted (insertion victim item undelivered) = victim.toList := by
  cases victim <;> rfl

@[simp] theorem refused_insertion :
    refused (insertion victim item undelivered) = [] := by
  cases victim <;> rfl

@[simp] theorem handed_insertion :
    handed (insertion victim item undelivered) = [] := by
  cases victim <;> rfl

@[simp] theorem decided_insertion :
    decided (insertion victim item undelivered) =
      [(item, undelivered)] := by
  cases victim <;> rfl

end Insertion

variable [DecidableEq Thread] [DecidableEq T]

/-- The record of insertions, evictions, refusals and swaps fits the deque. -/
structure Conserved
    (observed : List (Obs Thread T))
    (state : State Thread T) : Prop where
  contents :
    handed observed ++ state.queue.data =
      survivors (inserted observed) (evicted observed)
  order :
    (inserted observed).Sublist (decidedItems observed)
  split :
    (inserted observed ++ refused observed).Perm
      (decidedItems observed)
  evictedInserted :
    ∀ item ∈ evicted observed, item ∈ inserted observed
  evictedOnce :
    (evicted observed).Nodup
  results :
    ((decided observed).map Prod.snd).sum =
      (evicted observed).length + (refused observed).length

namespace Conserved

variable
  {observed emitted : List (Obs Thread T)}
  {state next : State Thread T}

/-- A step that records nothing and leaves the deque alone. -/
private theorem quiet
    (conserved : Conserved observed state)
    (contents : next.queue.data = state.queue.data)
    (silent :
      emitted = [] ∨ ∃ item undelivered,
        emitted = [.returned item undelivered]) :
    Conserved (observed ++ emitted) next := by
  have nothing :
      handed emitted = [] ∧ inserted emitted = [] ∧
        evicted emitted = [] ∧ refused emitted = [] ∧
        decided emitted = [] := by
    rcases silent with rfl | ⟨item, undelivered, rfl⟩ <;>
      exact ⟨rfl, rfl, rfl, rfl, rfl⟩
  obtain ⟨noHanded, noInserted, noEvicted, noRefused, noDecided⟩ :=
    nothing
  have noItems : decidedItems emitted = [] := by
    simp [decidedItems, noDecided]
  exact {
    contents := by
      simpa [noHanded, noInserted, noEvicted, contents] using
        conserved.contents
    order := by
      simpa [noInserted, noItems] using conserved.order
    split := by
      simpa [noInserted, noRefused, noItems] using conserved.split
    evictedInserted := by
      simpa [noInserted, noEvicted] using conserved.evictedInserted
    evictedOnce := by
      simpa [noEvicted] using conserved.evictedOnce
    results := by
      simpa [noEvicted, noRefused, noDecided] using conserved.results
  }

/-- The inserted items are pairwise distinct. -/
theorem inserted_nodup
    (conserved : Conserved observed state)
    (stamped : Stamped observed state) :
    (inserted observed).Nodup :=
  conserved.order.nodup stamped.nodup

/-- An item that is about to be decided is not on record yet. -/
private theorem unrecorded
    (conserved : Conserved observed state)
    (stamped : Stamped observed state)
    {thread : Thread}
    {item : Item Thread T}
    (pending : (state.phase thread).undecided? = some item) :
    item ∉ inserted observed ∧ item ∉ evicted observed := by
  obtain ⟨_, _, after⟩ := stamped.undecided thread item pending
  have undecided : item ∉ decidedItems observed := by
    intro member
    exact Nat.lt_irrefl _ (after item member rfl)
  have notInserted : item ∉ inserted observed := fun member =>
    undecided (conserved.order.subset member)
  exact ⟨notInserted, fun member =>
    notInserted (conserved.evictedInserted item member)⟩

/-- Refusing an item. -/
private theorem refuse
    (conserved : Conserved observed state)
    (item : Item Thread T)
    (contents : next.queue.data = state.queue.data) :
    Conserved (observed ++ [.refused item, .decided item 1]) next := by
  have nothingHanded :
      handed [.refused item, .decided item 1] = [] := rfl
  have nothingEntered :
      inserted [.refused item, .decided item 1] = [] := rfl
  have nothingWithdrawn :
      evicted [.refused item, .decided item 1] = [] := rfl
  have nowRefused :
      refused [.refused item, .decided item 1] = [item] := rfl
  have nowDecided :
      decided [.refused item, .decided item 1] = [(item, 1)] := rfl
  exact {
    contents := by
      simpa [nothingHanded, nothingEntered, nothingWithdrawn,
        contents] using conserved.contents
    order := by
      have extended :=
        conserved.order.append (List.nil_sublist [item])
      simpa [nothingEntered, decidedItems, nowDecided] using extended
    split := by
      have extended := conserved.split.append_right [item]
      simpa [nothingEntered, nowRefused, decidedItems,
        nowDecided] using extended
    evictedInserted := by
      simpa [nothingEntered, nothingWithdrawn] using
        conserved.evictedInserted
    evictedOnce := by
      simpa [nothingWithdrawn] using conserved.evictedOnce
    results := by
      have counted := conserved.results
      rw [decided_append, evicted_append, refused_append, nowDecided,
        nothingWithdrawn, nowRefused]
      simp only [List.map_append, List.sum_append,
        List.length_append]
      simp
      omega
  }

/-- A queued item was inserted and not evicted. -/
private theorem survives_of_queued
    (conserved : Conserved observed state)
    {item : Item Thread T}
    (queued : item ∈ state.queue.data) :
    item ∈ inserted observed ∧ item ∉ evicted observed := by
  rw [← mem_survivors, ← conserved.contents]
  exact List.mem_append_right _ queued

/-- Evicting at most the oldest item leaves the others. -/
private theorem survivors_of_front
    (conserved : Conserved observed state)
    (stamped : Stamped observed state)
    {victim : Option (Item Thread T)}
    {rest : List (Item Thread T)}
    (front : state.queue.data = victim.toList ++ rest) :
    survivors (inserted observed)
        (evicted observed ++ victim.toList) =
      handed observed ++ rest := by
  have before := conserved.contents
  rw [front] at before
  cases victim with
  | none =>
      simpa using before.symm
  | some oldest =>
      exact survivors_withdraw
        (conserved.inserted_nodup stamped) before.symm

/-- Inserting an item after evicting at most the oldest one. -/
private theorem insert
    (conserved : Conserved observed state)
    (stamped : Stamped observed state)
    {thread : Thread}
    {item : Item Thread T}
    (victim : Option (Item Thread T))
    (rest : List (Item Thread T))
    (undelivered : Nat)
    (pending : (state.phase thread).undecided? = some item)
    (front : state.queue.data = victim.toList ++ rest)
    (count : undelivered = victim.toList.length)
    (contents : next.queue.data = rest ++ [item]) :
    Conserved
      (observed ++ insertion victim item undelivered) next := by
  obtain ⟨notInserted, notEvicted⟩ :=
    conserved.unrecorded stamped pending
  have victimSurvives :
      ∀ oldest ∈ victim.toList,
        oldest ∈ inserted observed ∧ oldest ∉ evicted observed := by
    intro oldest isVictim
    apply conserved.survives_of_queued
    rw [front]
    exact List.mem_append_left _ isVictim
  exact {
    contents := by
      have kept :
          item ∉ evicted observed ++ victim.toList := by
        rw [List.mem_append]
        rintro (old | isVictim)
        · exact notEvicted old
        · exact notInserted (victimSurvives item isVictim).1
      rw [handed_append, inserted_append, evicted_append,
        inserted_insertion, evicted_insertion, handed_insertion,
        survivors_enter kept,
        conserved.survivors_of_front stamped front, contents]
      simp
    order := by
      rw [inserted_append, decidedItems_append, inserted_insertion]
      simpa [decidedItems] using
        conserved.order.append (List.Sublist.refl [item])
    split := by
      rw [inserted_append, refused_append, inserted_insertion,
        refused_insertion, decidedItems_append]
      have extended := conserved.split.append_right [item]
      have moved :
          (inserted observed ++ [item] ++
              (refused observed ++ [])).Perm
            (inserted observed ++ refused observed ++ [item]) := by
        have swapped :
            ([item] ++ refused observed).Perm
              (refused observed ++ [item]) :=
          List.perm_append_comm
        simpa [List.append_assoc] using
          swapped.append_left (inserted observed)
      simpa [decidedItems] using moved.trans extended
    evictedInserted := by
      intro oldest member
      rw [evicted_append, evicted_insertion,
        List.mem_append] at member
      rw [inserted_append]
      apply List.mem_append_left
      rcases member with old | isVictim
      · exact conserved.evictedInserted oldest old
      · exact (victimSurvives oldest isVictim).1
    evictedOnce := by
      rw [evicted_append, evicted_insertion]
      refine List.Nodup.append conserved.evictedOnce ?_ ?_
      · cases victim <;> simp
      · intro oldest old isVictim
        exact (victimSurvives oldest isVictim).2 old
    results := by
      have counted := conserved.results
      rw [decided_append, evicted_append, refused_append,
        decided_insertion, evicted_insertion, refused_insertion, count]
      simp only [List.map_append, List.sum_append,
        List.length_append]
      simp
      omega
  }

/-- Swapping the deque against an empty one. -/
private theorem swap
    (conserved : Conserved observed state)
    (contents : next.queue.data = []) :
    Conserved (observed ++ [.drained state.queue.data]) next := by
  have nowHanded :
      handed [Obs.drained state.queue.data] = state.queue.data := by
    simp [handed, batches]
  have nothingEntered :
      inserted [Obs.drained state.queue.data] = [] := rfl
  have nothingWithdrawn :
      evicted [Obs.drained state.queue.data] = [] := rfl
  have nothingRefused :
      refused [Obs.drained state.queue.data] = [] := rfl
  have nothingDecided :
      decided [Obs.drained state.queue.data] = [] := rfl
  exact {
    contents := by
      simpa [nowHanded, nothingEntered, nothingWithdrawn,
        contents] using conserved.contents
    order := by
      simpa [nothingEntered, decidedItems, nothingDecided] using
        conserved.order
    split := by
      simpa [nothingEntered, nothingRefused, decidedItems,
        nothingDecided] using conserved.split
    evictedInserted := by
      simpa [nothingEntered, nothingWithdrawn] using
        conserved.evictedInserted
    evictedOnce := by
      simpa [nothingWithdrawn] using conserved.evictedOnce
    results := by
      simpa [nothingDecided, nothingWithdrawn, nothingRefused] using
        conserved.results
  }

/-- Every step keeps the record and the deque in agreement. -/
theorem step
    {event : Event Thread T}
    (conserved : Conserved observed state)
    (stamped : Stamped observed state)
    (blank : BlankOuts state)
    (step : Step state event emitted next) :
    Conserved (observed ++ emitted) next := by
  cases step with
  | call thread operation =>
      cases operation <;> exact conserved.quiet rfl (Or.inl rfl)
  | refuse thread item =>
      exact conserved.refuse item rfl
  | insert thread item deciding =>
      exact conserved.insert stamped none state.queue.data 0
        deciding.undecided rfl rfl rfl
  | evict thread item oldest rest phase free contents =>
      have pending :
          (state.phase thread).undecided? = some item := by
        simp [phase, Phase.undecided?]
      exact conserved.insert stamped (some oldest) rest 1
        pending contents rfl rfl
  | swap thread out draining =>
      exact conserved.swap (blank.out_eq_nil draining)
  | returnPush thread item undelivered =>
      exact conserved.quiet rfl (Or.inr ⟨item, undelivered, rfl⟩)
  | block | undefined | sleepNotFull | notifyOne | drainBlock
  | exhaust | sleepNotEmpty | drainNotify | stop | stopNotifyEmpty
  | stopNotifyFull | empty | wakeNotFull | wakeNotEmpty
  | returnOther =>
      exact conserved.quiet rfl (Or.inl rfl)

/-- Every reachable record fits the deque. -/
theorem of_reaches
    {capacity : Nat}
    (reached :
      (machine Thread T capacity).ReachesBy EmptyOut observed state) :
    Conserved observed state :=
  reached.invariant Conserved
    {
      contents := rfl
      order := by simp [inserted]
      split := by simp [inserted, refused, decidedItems, decided]
      evictedInserted := by simp [evicted]
      evictedOnce := by simp [evicted]
      results := by simp [decided, evicted, refused]
    }
    (fun before conserved _ taken =>
      conserved.step (Stamped.of_reaches before)
        (BlankOuts.of_reaches before) (Step.of_step? taken))

/-- What has been handed out or is still queued occurs once. -/
theorem handed_data_nodup
    (conserved : Conserved observed state)
    (stamped : Stamped observed state) :
    (handed observed ++ state.queue.data).Nodup := by
  rw [conserved.contents]
  exact (survivors_sublist _ _).nodup
    (conserved.inserted_nodup stamped)

/-- Inserted items are exactly those handed out, queued or evicted. -/
theorem mem_inserted_iff
    (conserved : Conserved observed state)
    (item : Item Thread T) :
    item ∈ inserted observed ↔
      item ∈ handed observed ∨ item ∈ state.queue.data ∨
        item ∈ evicted observed := by
  have contents :
      item ∈ handed observed ∨ item ∈ state.queue.data ↔
        item ∈ inserted observed ∧ item ∉ evicted observed := by
    rw [← List.mem_append, conserved.contents, mem_survivors]
  have evictedInserted := conserved.evictedInserted item
  tauto

/-- An evicted item is neither handed out nor queued. -/
theorem not_mem_of_evicted
    (conserved : Conserved observed state)
    {item : Item Thread T}
    (gone : item ∈ evicted observed) :
    item ∉ handed observed ∧ item ∉ state.queue.data := by
  rw [← not_or, ← List.mem_append, conserved.contents, mem_survivors]
  exact fun survives => survives.2 gone

/-- A refused item was not inserted. -/
theorem not_mem_inserted_of_refused
    (conserved : Conserved observed state)
    (stamped : Stamped observed state)
    {item : Item Thread T}
    (turnedAway : item ∈ refused observed) :
    item ∉ inserted observed := by
  have distinct : (inserted observed ++ refused observed).Nodup :=
    conserved.split.nodup_iff.mpr stamped.nodup
  exact fun member =>
    List.disjoint_of_nodup_append distinct member turnedAway

end Conserved

/-- Where an item can be once its `push` has been decided. -/
inductive Place where
  | drained
  | queued
  | evicted
  | refused
  deriving Repr, DecidableEq

/-- The item is in the given place. -/
def Item.IsAt
    (observed : List (Obs Thread T))
    (state : State Thread T)
    (item : Item Thread T) : Place → Prop
  | .drained => ∃ batch ∈ batches observed, item ∈ batch
  | .queued => item ∈ state.queue.data
  | .evicted => item ∈ evicted observed
  | .refused => item ∈ refused observed

variable
  {capacity : Nat}
  {observed : List (Obs Thread T)}
  {state : State Thread T}

section Places

omit [DecidableEq Thread] [DecidableEq T]

variable {item : Item Thread T}

theorem Item.isAt_drained :
    item.IsAt observed state .drained ↔ item ∈ handed observed := by
  simp [Item.IsAt, handed]

theorem Item.isAt_queued :
    item.IsAt observed state .queued ↔ item ∈ state.queue.data :=
  Iff.rfl

theorem Item.isAt_evicted :
    item.IsAt observed state .evicted ↔ item ∈ evicted observed :=
  Iff.rfl

theorem Item.isAt_refused :
    item.IsAt observed state .refused ↔ item ∈ refused observed :=
  Iff.rfl

end Places

/--
Every decided item is in exactly one place, the queue is first-in first-out up
to evictions, and the results returned by `push` count the lost items.
-/
theorem queue_conserves_items
    (reached :
      (machine Thread T capacity).ReachesBy EmptyOut observed state) :
    (∀ item ∈ decidedItems observed,
      ∃! place, item.IsAt observed state place) ∧
      (batches observed).flatten ++ state.queue.data =
        survivors (inserted observed) (evicted observed) ∧
      ((decided observed).map Prod.snd).sum =
        (evicted observed).length + (refused observed).length := by
  have conserved := Conserved.of_reaches reached
  have stamped := Stamped.of_reaches reached
  refine ⟨?_, conserved.contents, conserved.results⟩
  intro item isDecided
  have apart :
      item ∈ handed observed → item ∉ state.queue.data := fun out =>
    List.disjoint_of_nodup_append
      (conserved.handed_data_nodup stamped) out
  have evictedApart := fun gone : item ∈ evicted observed =>
    conserved.not_mem_of_evicted gone
  have refusedApart := fun turnedAway : item ∈ refused observed =>
    conserved.not_mem_inserted_of_refused stamped turnedAway
  have entered := conserved.mem_inserted_iff item
  have decidedEither :
      item ∈ inserted observed ∨ item ∈ refused observed := by
    rw [← List.mem_append]
    exact conserved.split.mem_iff.mpr isDecided
  have somewhere : ∃ place, item.IsAt observed state place := by
    rcases decidedEither with isInserted | isRefused
    · rcases entered.mp isInserted with out | queued | gone
      · exact ⟨.drained, Item.isAt_drained.mpr out⟩
      · exact ⟨.queued, queued⟩
      · exact ⟨.evicted, gone⟩
    · exact ⟨.refused, isRefused⟩
  obtain ⟨place, isAt⟩ := somewhere
  refine ⟨place, isAt, ?_⟩
  intro other isAtOther
  cases place <;> cases other <;>
    simp only [Item.isAt_drained, Item.isAt_queued,
      Item.isAt_evicted, Item.isAt_refused] at isAt isAtOther <;>
    first
      | rfl
      | grind

end Conservation

/--
Three policies on a queue of capacity one: an eviction, a refusal and a batch.
-/
theorem queue_conserves_items_of_mixed_policies :
    ∃ (observed : List (Obs (Fin 4) Nat))
      (state : State (Fin 4) Nat),
      (machine (Fin 4) Nat 1).ReachesBy EmptyOut observed state ∧
        (decided observed).map Prod.snd = [0, 1, 1, 0] ∧
        (∀ item ∈ decidedItems observed,
          ∃! place, item.IsAt observed state place) ∧
        (batches observed).flatten ++ state.queue.data =
          survivors (inserted observed) (evicted observed) ∧
        ((decided observed).map Prod.snd).sum =
          (evicted observed).length + (refused observed).length := by
  obtain ⟨observed, state, reached, feature⟩ :=
    (machine (Fin 4) Nat 1).exists_reachesBy EmptyOut
      [.call 0 (.push 10 .block), .advance 0,
        .call 1 (.push 11 .dropOldest), .advance 1,
        .call 2 (.push 12 .dropNewest), .advance 2,
        .call 3 (.drain []), .advance 3, .ret 2,
        .call 2 (.push 13 .dropNewest), .advance 2]
      (fun observed _ =>
        (decided observed).map Prod.snd == [0, 1, 1, 0])
      (by decide +kernel)
  exact ⟨observed, state, reached, by simpa using feature,
    queue_conserves_items reached⟩

end ConcLogger.Queue
