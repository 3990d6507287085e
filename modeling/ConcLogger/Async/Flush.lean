import ConcLogger.Async.Origins
import ConcLogger.Async.Pending
import ConcLogger.Concurrency.Record

namespace ConcLogger.Async

open Concurrency

/-!
# The flush guarantee

When a `flush()` caller reads `pending_` as zero, every entry whose `log()`
call has returned is settled or lost, and this stays so while the caller
flushes the sinks and returns.
-/

variable {Thread : Type}

/-- `~Logger` has not begun. -/
def Alive (_ : State Thread) : Event Thread → Prop
  | .destroy _ => False
  | _ => True

instance decidableAlive
    (state : State Thread) :
    ∀ event, Decidable (Alive state event)
  | .destroy _ => .isFalse id
  | .log _ _ _ _ _ | .flush _ | .client _ | .worker | .write _
  | .advance _ | .notifyOne _ _ | .wakeQueue _ | .wake _ =>
      .isTrue trivial

section Accounts

/-- The overflow policy has discarded the entry. -/
def Discarded
    (config : LoggerConfig)
    (observed : List (Obs Thread))
    (item : Item Thread) : Prop :=
  (config.policy.overflowPolicy = .dropNewest ∧
      item ∈ Queue.refused (trace observed)) ∨
    (config.policy.overflowPolicy = .dropOldest ∧
      item ∈ Queue.evicted (trace observed))

/-- The entry is settled and has been written on every sink, or is discarded. -/
def Accounted
    (config : LoggerConfig)
    (observed : List (Obs Thread))
    (item : Item Thread) : Prop :=
  (item ∈ settled observed ∧
      ∀ position,
        position < config.sinkCount →
        item ∈ written position observed) ∨
    Discarded config observed item

/-- Every entry whose `log()` call had returned earlier is accounted for. -/
def AllAccounted
    (config : LoggerConfig)
    (earlier observed : List (Obs Thread)) : Prop :=
  ∀ caller item,
    .logReturned caller (some item) ∈ earlier →
    Accounted config observed item

variable
  {config : LoggerConfig}
  {observed emitted : List (Obs Thread)}
  {item : Item Thread}

/-- Discarded entries stay discarded. -/
theorem Discarded.append
    (discarded : Discarded config observed item) :
    Discarded config (observed ++ emitted) item := by
  unfold Discarded
  rw [trace_append, Queue.refused_append, Queue.evicted_append]
  exact discarded.imp
    (And.imp_right (List.mem_append_left _))
    (And.imp_right (List.mem_append_left _))

/-- What is accounted for stays accounted for. -/
theorem Accounted.append
    (accounted : Accounted config observed item) :
    Accounted config (observed ++ emitted) item := by
  rcases accounted with ⟨isSettled, isWritten⟩ | discarded
  · refine Or.inl ⟨?_, fun position inside => ?_⟩
    · rw [settled_append]
      exact List.mem_append_left _ isSettled
    · rw [written_append]
      exact List.mem_append_left _ (isWritten position inside)
  · exact Or.inr discarded.append

end Accounts

section Drained

variable
  [DecidableEq Thread]
  {config : LoggerConfig}
  {observed : List (Obs Thread)}
  {state : State Thread}

/-- While no destructor has begun there is no destroyer. -/
private theorem destroyer_eq_none
    (reached :
      (machine Thread config).ReachesBy Alive observed state) :
    state.destroyer = none := by
  refine reached.invariant
    (fun _ state => state.destroyer = none) rfl ?_
  intro observed emitted state next event _ alone alive taken
  cases Step.of_step? taken with
  | destroy thread =>
      exact alive.elim
  | client thread emitted next step =>
      rw [step.destroyer_eq, alone]
  | worker event emitted next isWorker step =>
      rw [step.clients_eq.2, alone]
  | _ =>
      exact alone

/-- The queue of a logger that is alive has not been stopped. -/
theorem not_stopped
    (reached :
      (machine Thread config).ReachesBy Alive observed state) :
    state.core.shared.queue.stopped ≠ true := by
  intro stopped
  obtain ⟨thread, isDestroyer⟩ :=
    StoppedByDestroyer.of_reaches reached stopped
  rw [destroyer_eq_none reached] at isDestroyer
  cases isDestroyer

/-- With `pending_` at zero nothing is queued and nothing is unsettled. -/
theorem nothing_left_of_pending_zero
    [Fintype Thread]
    {allowed : State Thread → Event Thread → Prop}
    (positive : 0 < config.policy.queueCapacity)
    (reached :
      (machine Thread config).ReachesBy allowed observed state)
    (zero : state.pending = 0) :
    state.core.shared.queue.data = [] ∧ state.unsettled = [] := by
  have counted := pending_eq_headcount positive reached
  constructor <;>
    · apply List.eq_nil_of_length_eq_zero
      omega

/-- With `pending_` at zero every returned entry is accounted for. -/
theorem allAccounted_of_pending_zero
    [Fintype Thread]
    (positive : 0 < config.policy.queueCapacity)
    (reached :
      (machine Thread config).ReachesBy Alive observed state)
    (zero : state.pending = 0) :
    AllAccounted config observed observed := by
  intro caller item isReturned
  obtain ⟨noneQueued, noneUnsettled⟩ :=
    nothing_left_of_pending_zero positive reached zero
  have conserved := Queue.Conserved.of_reaches (reaches_queue reached)
  have delivered := Delivered.of_reaches reached
  have losses := LossesExplained.of_reaches reached
  have isDecided :=
    (Logged.of_reaches reached).returned caller item isReturned
  rcases List.mem_append.mp
      (conserved.split.mem_iff.mpr isDecided) with
    isInserted | isRefused
  · rcases (conserved.mem_inserted_iff item).mp isInserted with
      isHanded | isQueued | isEvicted
    · rw [delivered.handed, noneUnsettled,
        List.append_nil] at isHanded
      refine Or.inl ⟨isHanded, fun position inside => ?_⟩
      rw [delivered.inside position inside]
      exact List.mem_append_left _ isHanded
    · rw [noneQueued] at isQueued
      cases isQueued
    · exact Or.inr (Or.inr
        ⟨losses.evicted (List.ne_nil_of_mem isEvicted), isEvicted⟩)
  · refine Or.inr (Or.inl ⟨?_, isRefused⟩)
    exact (losses.refused
      (List.ne_nil_of_mem isRefused)).resolve_right
        (not_stopped reached)

/-- What is accounted for is neither queued nor unsettled. -/
theorem Accounted.not_left
    {allowed : State Thread → Event Thread → Prop}
    {item : Item Thread}
    (accounted : Accounted config observed item)
    (reached :
      (machine Thread config).ReachesBy allowed observed state) :
    item ∉ state.core.shared.queue.data ∧ item ∉ state.unsettled := by
  have conserved := Queue.Conserved.of_reaches (reaches_queue reached)
  have stamped := Queue.Stamped.of_reaches (reaches_queue reached)
  have delivered := Delivered.of_reaches reached
  have unhanded :
      item ∉ Queue.handed (trace observed) → item ∉ state.unsettled := by
    rw [delivered.handed]
    exact fun absent isUnsettled =>
      absent (List.mem_append_right _ isUnsettled)
  rcases accounted with ⟨isSettled, _⟩ | ⟨_, isRefused⟩ | ⟨_, isEvicted⟩
  · have distinct := conserved.handed_data_nodup stamped
    rw [delivered.handed, List.append_assoc] at distinct
    have apart := List.disjoint_of_nodup_append distinct isSettled
    exact ⟨fun isQueued => apart (List.mem_append_right _ isQueued),
      fun isUnsettled => apart (List.mem_append_left _ isUnsettled)⟩
  · have absent :=
      conserved.not_mem_inserted_of_refused stamped isRefused
    rw [conserved.mem_inserted_iff, not_or, not_or] at absent
    exact ⟨absent.2.1, unhanded absent.1⟩
  · have absent := conserved.not_mem_of_evicted isEvicted
    exact ⟨absent.2, unhanded absent.1⟩

end Drained

section Watch

/-- What is known of a `flush()` call from the phase of its caller. -/
def FlushWatched
    (config : LoggerConfig)
    (observed : List (Obs Thread))
    (thread : Thread) : Phase Thread → Prop
  | .flushLocking | .flushBlocking | .flushWaiting =>
      ∃ before during,
        Latest (.flushCalled thread) observed before during
  | .flushSinks position =>
      ∃ before early late,
        Latest (.flushCalled thread) observed before (early ++ late) ∧
          AllAccounted config before
            (before ++ .flushCalled thread :: early) ∧
          ∀ flushed < position, .sinkFlushed thread flushed ∈ late
  | _ => True

variable
  [DecidableEq Thread]
  {config : LoggerConfig}
  {observed emitted : List (Obs Thread)}
  {state next : State Thread}
  {thread : Thread}
  {phase : Phase Thread}

omit [DecidableEq Thread] in
/-- What other threads do leaves a `flush()` call under way. -/
theorem FlushWatched.append
    (watched : FlushWatched config observed thread phase)
    (other : .flushCalled thread ∉ emitted) :
    FlushWatched config (observed ++ emitted) thread phase := by
  cases phase with
  | flushLocking | flushBlocking | flushWaiting =>
      obtain ⟨before, during, latest⟩ := watched
      exact ⟨before, _, latest.append other⟩
  | flushSinks position =>
      obtain ⟨before, early, late, latest, accounted, flushed⟩ := watched
      refine ⟨before, early, late ++ emitted, ?_, accounted, ?_⟩
      · simpa using latest.append other
      · intro sink earlier
        exact List.mem_append_left _ (flushed sink earlier)
  | _ =>
      trivial

/-- The calls of every thread are watched after one thread has moved. -/
private theorem forall_watched_moveTo
    (watched :
      ∀ thread,
        FlushWatched config observed thread (state.phase thread))
    (moved : next.phase = Function.update state.phase thread phase)
    (others :
      ∀ other,
        other ≠ thread →
        .flushCalled other ∉ emitted)
    (mover : FlushWatched config (observed ++ emitted) thread phase) :
    ∀ other,
      FlushWatched config (observed ++ emitted) other
        (next.phase other) := by
  rw [moved]
  exact forall_update
    (FlushWatched config (observed ++ emitted))
    (fun other different =>
      (watched other).append (others other different))
    mover

omit [DecidableEq Thread] in
/-- The calls of every thread are watched after a step of no client. -/
private theorem forall_watched_append
    (watched :
      ∀ thread,
        FlushWatched config observed thread (state.phase thread))
    (same : next.phase = state.phase)
    (silent : ∀ other, .flushCalled other ∉ emitted) :
    ∀ other,
      FlushWatched config (observed ++ emitted) other
        (next.phase other) := by
  intro other
  rw [same]
  exact (watched other).append (silent other)

omit [DecidableEq Thread] in
/-- An evaluation of the predicate comes after the call. -/
private theorem FlushWatched.latest
    (watched : FlushWatched config observed thread phase)
    (awaiting : phase = .flushLocking ∨ phase = .flushWaiting) :
    ∃ before during,
      Latest (.flushCalled thread) observed before during := by
  rcases awaiting with rfl | rfl <;> exact watched

/-- Every step of a client keeps the calls watched. -/
private theorem ClientStep.watched
    (watched :
      ∀ thread,
        FlushWatched config observed thread (state.phase thread))
    (drained :
      state.pending = 0 →
      AllAccounted config observed observed)
    (step : ClientStep config state thread emitted next) :
    ∀ other,
      FlushWatched config (observed ++ emitted) other
        (next.phase other) := by
  have before := watched thread
  cases step with
  | flushPass awaiting free zero =>
      refine forall_watched_moveTo watched rfl (by simp) ?_
      obtain ⟨before, during, latest⟩ :=
        before.latest (awaiting.imp_right And.left)
      refine ⟨before, during, [], by simpa using latest, ?_, by simp⟩
      rw [← latest.shape]
      intro caller item isReturned
      apply drained zero caller item
      rw [latest.shape]
      exact List.mem_append_left _ isReturned
  | flushBlock awaiting =>
      refine forall_watched_moveTo watched rfl (by simp) ?_
      rw [List.append_nil]
      exact before.latest (awaiting.imp_right And.left)
  | flushSleep phase =>
      rw [phase] at before
      refine forall_watched_moveTo watched rfl (by simp) ?_
      rw [List.append_nil]
      exact before
  | flushSink position phase more =>
      rw [phase] at before
      refine forall_watched_moveTo watched rfl (by simp) ?_
      obtain ⟨before, early, late, latest, accounted, flushed⟩ := before
      refine ⟨before, early, late ++ [.sinkFlushed thread position],
        ?_, accounted, ?_⟩
      · rw [← List.append_assoc]
        exact latest.append (by simp)
      · intro sink earlier
        rcases Nat.lt_succ_iff_lt_or_eq.mp earlier with less | rfl
        · exact List.mem_append_left _ (flushed sink less)
        · simp
  | pushed | settle =>
      refine forall_watched_moveTo watched rfl (by simp) ?_
      split <;> trivial
  | _ =>
      exact forall_watched_moveTo watched rfl (by simp) trivial

/-- Every step keeps the calls watched. -/
private theorem Step.watched
    {event : Event Thread}
    (watched :
      ∀ thread,
        FlushWatched config observed thread (state.phase thread))
    (drained :
      state.pending = 0 →
      AllAccounted config observed observed)
    (step : Step config state event emitted next) :
    ∀ other,
      FlushWatched config (observed ++ emitted) other
        (next.phase other) := by
  cases step with
  | log thread level message withThreadDump environment phase idle
      admitted =>
      refine forall_watched_moveTo watched rfl (by simp) ?_
      rcases admitted with ⟨_, rfl⟩ | ⟨entry, _, rfl⟩ <;> trivial
  | flush thread idle =>
      refine forall_watched_moveTo watched rfl ?_ ?_
      · intro other different
        simpa using different
      · exact ⟨observed, [], .now⟩
  | destroy thread idle alive =>
      exact forall_watched_moveTo watched rfl (by simp) trivial
  | client thread emitted next step =>
      exact step.watched watched drained
  | worker event emitted next isWorker step =>
      apply forall_watched_append watched step.clients_eq.1
      intro other
      cases step <;> simp [State.settling]
  | inner | wake =>
      exact forall_watched_append watched rfl (by simp)

/-- In every reachable state of a logger that is alive the calls are watched. -/
theorem FlushWatched.of_reaches
    [Fintype Thread]
    (positive : 0 < config.policy.queueCapacity)
    (reached :
      (machine Thread config).ReachesBy Alive observed state)
    (thread : Thread) :
    FlushWatched config observed thread (state.phase thread) :=
  reached.invariant
    (fun observed state =>
      ∀ thread,
        FlushWatched config observed thread (state.phase thread))
    (by
      intro thread
      trivial)
    (fun before watched _ taken =>
      (Step.of_step? taken).watched watched
        (allAccounted_of_pending_zero positive before))
    thread

/-- A `flush()` call returns when it has been at every sink. -/
theorem Step.flushSinks_of_returned
    {event : Event Thread}
    (step : Step config state event emitted next)
    (returned : .flushReturned thread ∈ emitted) :
    ∃ position,
      state.phase thread = .flushSinks position ∧
        config.sinkCount ≤ position := by
  cases step with
  | client mover emitted next step =>
      cases step with
      | flushReturn position phase done =>
          simp only [List.mem_singleton,
            Obs.flushReturned.injEq] at returned
          subst returned
          exact ⟨position, phase, done⟩
      | _ =>
          simp at returned
  | worker event emitted next isWorker step =>
      cases step <;> simp [State.settling] at returned
  | _ =>
      simp at returned

end Watch

/--
When a `flush()` call returns, every entry whose `log()` call had returned
before the call began has been written on every sink or was discarded by the
overflow policy.  It is neither queued nor among the entries of the batch that
the worker has yet to settle, and the call has flushed each sink since.
-/
theorem flush_accounts_for_returned_entries
    [DecidableEq Thread]
    [Fintype Thread]
    {config : LoggerConfig}
    {state next : State Thread}
    {event : Event Thread}
    {before during : List (Obs Thread)}
    {thread caller : Thread}
    {item : Item Thread}
    (positive : 0 < config.policy.queueCapacity)
    (reached :
      (machine Thread config).ReachesBy Alive
        (before ++ .flushCalled thread :: during) state)
    (sameCall : .flushCalled thread ∉ during)
    (returns :
      state.step? config event = some (next, [.flushReturned thread]))
    (logged : .logReturned caller (some item) ∈ before) :
    ((∀ position,
        position < config.sinkCount →
        item ∈ written position
          (before ++ .flushCalled thread :: during)) ∨
      Discarded config (before ++ .flushCalled thread :: during) item) ∧
      item ∉ next.core.shared.queue.data ∧
      item ∉ next.unsettled ∧
      ∀ position,
        position < config.sinkCount →
        ∃ early late,
          during = early ++ .sinkFlushed thread position :: late ∧
            ((∀ other,
                other < config.sinkCount →
                item ∈ written other
                  (before ++ .flushCalled thread :: early)) ∨
              Discarded config
                (before ++ .flushCalled thread :: early) item) := by
  obtain ⟨last, phase, done⟩ :=
    (Step.of_step? returns).flushSinks_of_returned
      (List.mem_singleton.mpr rfl)
  have watched := FlushWatched.of_reaches positive reached thread
  rw [phase] at watched
  obtain ⟨began, early, late, latest, accounted, flushed⟩ := watched
  obtain ⟨rfl, rfl⟩ := latest.unique ⟨rfl, sameCall⟩
  have atFirst := accounted caller item logged
  have atReturn :
      Accounted config
        (began ++ .flushCalled thread :: (early ++ late)) item := by
    have later :
        Accounted config
          (began ++ .flushCalled thread :: early ++ late) item :=
      atFirst.append
    simpa using later
  have continued :
      (machine Thread config).Reaches
        (began ++ .flushCalled thread :: (early ++ late) ++
          [.flushReturned thread]) next :=
    .step event reached.reaches trivial returns
  obtain ⟨notQueued, notUnsettled⟩ :=
    atReturn.append.not_left continued
  refine ⟨atReturn.imp_left And.right, notQueued, notUnsettled, ?_⟩
  intro position inside
  obtain ⟨between, rest, rfl⟩ :=
    List.append_of_mem
      (flushed position (Nat.lt_of_lt_of_le inside done))
  refine ⟨early ++ between, rest, by simp, ?_⟩
  have atFlush :
      Accounted config
        (began ++ .flushCalled thread :: (early ++ between)) item := by
    have later :
        Accounted config
          (began ++ .flushCalled thread :: early ++ between) item :=
      atFirst.append
    simpa using later
  exact atFlush.imp_left And.right

/--
One entry is logged, written and settled; then another thread flushes the
logger and is about to return.
-/
theorem flush_accounts_for_returned_entries_of_one_call :
    ∃ (before during : List (Obs (Fin 2)))
      (state next : State (Fin 2))
      (item : Item (Fin 2)),
      (machine (Fin 2)
          { module := "net", sinkCount := 1 }).ReachesBy Alive
          (before ++ .flushCalled 1 :: during) state ∧
        state.step? { module := "net", sinkCount := 1 } (.client 1) =
          some (next, [.flushReturned 1]) ∧
        .logReturned 0 (some item) ∈ before ∧
        item ∉ next.core.shared.queue.data ∧
        item ∉ next.unsettled := by
  obtain ⟨observed, state, reached, feature⟩ :=
    (machine (Fin 2)
        { module := "net", sinkCount := 1 }).exists_reachesBy
      Alive
      [.log 0 .warn "kept" false ⟨0, ⟨0, 1, 1, false, 0, 0⟩⟩,
        .client 0, .advance (.client 0),
        .notifyOne (.client 0) .worker, .client 0, .client 0,
        .worker, .advance .worker, .advance .worker, .worker,
        .worker, .write 0, .worker, .worker, .worker,
        .flush 1, .client 1, .client 1]
      (fun observed state =>
        decide
            (observed =
              observed.take 8 ++ .flushCalled 1 :: observed.drop 9 ∧
              .flushCalled 1 ∉ observed.drop 9 ∧
              .logReturned 0
                  (some
                    { producer := .client 0
                      index := 0
                      value :=
                        buildEntry "net" .warn "kept" false
                          ⟨0, ⟨0, 1, 1, false, 0, 0⟩⟩ }) ∈
                observed.take 8) &&
          (state.step? { module := "net", sinkCount := 1 }
            (.client 1)).map Prod.snd == some [.flushReturned 1])
      (by decide +kernel)
  simp only [Bool.and_eq_true, decide_eq_true_eq, beq_iff_eq,
    Option.map_eq_some_iff] at feature
  obtain ⟨⟨shape, sameCall, logged⟩, ⟨next, _⟩, returns, rfl⟩ := feature
  rw [shape] at reached
  have accounted :=
    flush_accounts_for_returned_entries (by decide) reached sameCall
      returns logged
  exact ⟨_, _, state, next, _, reached, returns, logged,
    accounted.2.1, accounted.2.2.1⟩

end ConcLogger.Async
