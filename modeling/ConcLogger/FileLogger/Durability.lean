import ConcLogger.Async.Flush
import ConcLogger.FileLogger.Invariant

namespace ConcLogger.FileLogger

open Concurrency
open Sinks

/-!
# What `flush` and `~Logger` leave in the file

A client that goes over the sinks flushes the file sink at each of its
positions.  What had been written there when the client was at the position is
in the file when it goes on, so the guarantees of the logger's `flush` and of
its destructor carry over from the sinks to the file.
-/

variable
  {Thread : Type}
  [DecidableEq Thread]
  {config : LoggerConfig}
  {uses : Positions}
  {allowed : Async.State Thread → Async.Event Thread → Prop}
  {observed emitted early late : List (Obs Thread)}
  {state earlier next : State Thread}
  {event : Event Thread}
  {thread : Thread}

/-- A client has stayed in the same call since an earlier moment. -/
structure Since
    (config : LoggerConfig)
    (uses : Positions)
    (allowed : Async.State Thread → Async.Event Thread → Prop)
    (thread : Thread)
    (early : List (Obs Thread))
    (earlier : State Thread)
    (late : List (Obs Thread))
    (state : State Thread) : Prop where
  reached :
    (machine Thread config).ReachesBy (Permitted config uses allowed)
      early earlier
  sameCall : .flushCalled thread ∉ firsts late
  unwritten :
    earlier.1.Finished →
    state.1.Finished ∧
      ∀ position, Async.written position (firsts late) = []

/-- A step of the sink alone is a present moment. -/
theorem Since.now
    (reached :
      (machine Thread config).ReachesBy (Permitted config uses allowed)
        observed state)
    (sink : FileSink.State (Caller Thread))
    (seen : FileSink.Obs (Caller Thread)) :
    Since config uses allowed thread observed state [.inr seen]
      (state.1, sink) where
  reached := reached
  sameCall := by simp
  unwritten finished := ⟨finished, fun _ => rfl⟩

/-- A client that is inside a call stays in it during a step. -/
theorem Since.step
    (since : Since config uses allowed thread early earlier late state)
    (busy : state.1.phase thread ≠ .idle)
    (linked : Async.Linked state.1)
    (taken :
      (machine Thread config).step? state event = some (next, emitted)) :
    Since config uses allowed thread early earlier (late ++ emitted)
      next := by
  have alone :
      .flushCalled thread ∉ firsts emitted ∧
        (state.1.Finished →
          next.1.Finished ∧
            ∀ position, Async.written position (firsts emitted) = []) := by
    cases Machine.CoupledStep.of_step? taken with
    | first own moved seen stepped
    | both own called moved answer seen answered stepped joined =>
        have step := Async.Step.of_step? stepped
        simp only [firsts_append, firsts_map_inl, firsts_map_inr,
          List.append_nil]
        exact ⟨Async.flushCalled_not_mem_of_step? busy stepped,
          fun finished => ⟨step.finished_mono finished,
            step.writes_nothing_of_finished linked finished⟩⟩
    | second called answer answered joined =>
        rw [firsts_map_inr]
        exact ⟨List.not_mem_nil, fun finished => ⟨finished, fun _ => rfl⟩⟩
  refine ⟨since.reached, ?_, fun finished => ?_⟩
  · rw [firsts_append, List.mem_append, not_or]
    exact ⟨since.sameCall, alone.1⟩
  · obtain ⟨stillFinished, unwritten⟩ := since.unwritten finished
    obtain ⟨nowFinished, nothing⟩ := alone.2 stillFinished
    refine ⟨nowFinished, fun position => ?_⟩
    rw [firsts_append, Async.written_append, unwritten position,
      nothing position, List.append_nil]

/-! ## A client inside `flush` of the sink -/

omit [DecidableEq Thread] in
/-- A client inside the sink is at one of its positions. -/
theorem Fits.atSink
    {logger : Async.State Thread}
    {phase : FileSink.Phase}
    (fits : Fits config uses logger (.client thread) phase)
    (inside : phase ≠ .idle) :
    caller? config uses logger (.client thread) =
      some (.client thread) := by
  cases phase with
  | idle =>
      exact (inside rfl).elim
  | flushLocking | flushing | flushUnlocking =>
      exact fits
  | _ =>
      exact fits.elim

/-- A client called `flush` of the sink where it still is. -/
def FlushBegan
    (config : LoggerConfig)
    (uses : Positions)
    (allowed : Async.State Thread → Async.Event Thread → Prop)
    (observed : List (Obs Thread))
    (state : State Thread)
    (thread : Thread) : Prop :=
  ∃ early earlier late,
    Latest (.inr (.flushCalled (.client thread))) observed early late ∧
      earlier.1.phase thread = state.1.phase thread ∧
      Since config uses allowed thread early earlier
        (.inr (.flushCalled (.client thread)) :: late) state

/-- The call stays what it is while its caller stays where it is. -/
theorem FlushBegan.step
    (began : FlushBegan config uses allowed observed state thread)
    (busy : state.1.phase thread ≠ .idle)
    (linked : Async.Linked state.1)
    (taken :
      (machine Thread config).step? state event = some (next, emitted))
    (same : next.1.phase thread = state.1.phase thread)
    (other : .flushCalled (.client thread) ∉ seconds emitted) :
    FlushBegan config uses allowed (observed ++ emitted) next thread := by
  obtain ⟨early, earlier, late, latest, there, since⟩ := began
  exact ⟨early, earlier, late ++ emitted,
    latest.append fun isSeen => other (mem_seconds.mpr isSeen), there.trans same.symm,
    since.step busy linked taken⟩

/-- What a step of the sink does to a thread that is inside afterwards. -/
theorem inside_of_step
    {sink answer : FileSink.State (Caller Thread)}
    {called : FileSink.Event (Caller Thread)}
    {answered : List (FileSink.Obs (Caller Thread))}
    {caller : Caller Thread}
    (step : FileSink.Step sink called answered answer)
    (inside : answer.phase caller ≠ .idle) :
    (∃ entry tm, called = .write caller entry tm) ∨
      called = .flush caller ∨
      (sink.phase caller ≠ .idle ∧ .flushCalled caller ∉ answered) := by
  cases step with
  | write mover entry tm idle =>
      by_cases same : caller = mover
      · exact Or.inl ⟨entry, tm, by rw [same]⟩
      · exact Or.inr (Or.inr ⟨by simpa [same] using inside, by simp⟩)
  | flush mover idle =>
      by_cases same : caller = mover
      · exact Or.inr (Or.inl (by rw [same]))
      · exact Or.inr (Or.inr ⟨by simpa [same] using inside, by simpa⟩)
  | pass count =>
      exact Or.inr (Or.inr ⟨inside, by simp⟩)
  | lock mover entry tm phase | insert mover entry tm piece rest phase
  | flushLock mover phase | flushStream mover phase =>
      by_cases same : caller = mover
      · subst same
        exact Or.inr (Or.inr ⟨by simp [phase], by simp⟩)
      · exact Or.inr (Or.inr ⟨by simpa [same] using inside, by simp⟩)
  | unlock mover entry tm phase | flushUnlock mover phase =>
      by_cases same : caller = mover
      · subst same
        exact (inside (Function.update_self _ _ _)).elim
      · exact Or.inr (Or.inr ⟨by simpa [same] using inside, by simp⟩)

/-- Every permitted step knows where the clients called `flush` of the sink. -/
theorem flushBegan_step
    (reached :
      (machine Thread config).ReachesBy (Permitted config uses allowed)
        observed state)
    (began :
      ∀ thread,
        state.2.phase (.client thread) ≠ .idle →
        FlushBegan config uses allowed observed state thread)
    (permitted : Permitted config uses allowed state event)
    (taken :
      (machine Thread config).step? state event = some (next, emitted))
    (thread : Thread)
    (inside : next.2.phase (.client thread) ≠ .idle) :
    FlushBegan config uses allowed (observed ++ emitted) next thread := by
  have fit := AllFit.of_reaches reached (.client thread)
  have linked := Async.Linked.of_reaches (reaches_logger reached)
  cases Machine.CoupledStep.of_step? taken with
  | first own moved seen stepped =>
      have atSink := fit.atSink inside
      have busy := busy_of_caller? atSink
      refine (began thread inside).step busy linked taken ?_ (by simp)
      refine Async.phase_of_step? busy ?_ stepped
      rintro rfl
      rw [permitted.2] at atSink
      cases atSink
  | second called answer answered joined =>
      have sinkStep : FileSink.Step state.2 called answered answer :=
        .of_step? joined
      rcases inside_of_step sinkStep inside with
        ⟨entry, tm, rfl⟩ | rfl | ⟨before, other⟩
      · exact permitted.elim
      · cases sinkStep with
        | flush caller idle =>
            exact ⟨observed, state, [], .now, rfl, .now reached _ _⟩
      · refine (began thread before).step
          (busy_of_caller? (fit.atSink before)) linked taken rfl ?_
        rwa [seconds_map_inr]
  | both own called moved answer seen answered stepped joined =>
      cases called with
      | advance caller =>
          have sinkStep :
              FileSink.Step state.2 (.advance caller) answered answer :=
            .of_step? joined
          rcases inside_of_step sinkStep inside with
            ⟨entry, tm, isWrite⟩ | isFlush | ⟨before, other⟩
          · cases isWrite
          · cases isFlush
          · have atSink := fit.atSink before
            have busy := busy_of_caller? atSink
            refine (began thread before).step busy linked taken ?_ (by
              simpa using other)
            refine Async.phase_of_step? busy ?_ stepped
            rintro rfl
            obtain ⟨_, isCaller, returning⟩ := permitted
            cases isCaller.symm.trans atSink
            obtain ⟨rfl, _⟩ := returned sinkStep returning
            exact inside (Function.update_self _ _ _)
      | _ =>
          exact permitted.elim

/-- In every reachable state it is known where `flush` was called. -/
theorem FlushBegan.of_reaches
    (reached :
      (machine Thread config).ReachesBy (Permitted config uses allowed)
        observed state)
    (thread : Thread)
    (inside : state.2.phase (.client thread) ≠ .idle) :
    FlushBegan config uses allowed observed state thread :=
  reached.invariant
    (fun observed state =>
      ∀ thread,
        state.2.phase (.client thread) ≠ .idle →
        FlushBegan config uses allowed observed state thread)
    (fun _ inside => (inside rfl).elim)
    (fun before began permitted taken =>
      flushBegan_step before began permitted taken)
    thread inside

/-! ## What is in the file when a client goes on -/

/--
At every position of the sink that a client has passed in a loop over the
sinks, what had been written when it was there is in the file.
-/
def Swept
    (config : LoggerConfig)
    (uses : Positions)
    (allowed : Async.State Thread → Async.Event Thread → Prop)
    (observed : List (Obs Thread))
    (state : State Thread)
    (thread : Thread) : Prop :=
  ∀ loop,
    Async.Loop loop →
    ∀ last,
      state.1.phase thread = loop last →
      ∀ position < last,
        uses position = true →
        ∃ early earlier late,
          observed = early ++ late ∧
            earlier.1.phase thread = loop position ∧
            Since config uses allowed thread early earlier late state ∧
            (FileSink.text (FileSink.records (seconds early))).length ≤
              state.2.passed

/-- A client that stays in its loop has passed the same positions. -/
theorem Swept.stay
    {loop : Nat → Async.Phase Thread}
    {last position : Nat}
    (swept : Swept config uses allowed observed state thread)
    (isLoop : Async.Loop loop)
    (phase : state.1.phase thread = loop last)
    (linked : Async.Linked state.1)
    (taken :
      (machine Thread config).step? state event = some (next, emitted))
    (grows : state.2.passed ≤ next.2.passed)
    (earlier : position < last)
    (isUsed : uses position = true) :
    ∃ early earlier late,
      observed ++ emitted = early ++ late ∧
        earlier.1.phase thread = loop position ∧
        Since config uses allowed thread early earlier late next ∧
        (FileSink.text (FileSink.records (seconds early))).length ≤
          next.2.passed := by
  obtain ⟨early, moment, late, rfl, there, since, inFile⟩ :=
    swept loop isLoop last phase position earlier isUsed
  exact ⟨early, moment, late ++ emitted, by simp, there,
    since.step (isLoop.busy phase) linked taken, inFile.trans grows⟩

/-- When `flush` of the sink returns, what it was called for is in the file. -/
theorem text_length_le_of_flushed
    (reached :
      (machine Thread config).ReachesBy (Permitted config uses allowed)
        observed state)
    (phase : state.2.phase (.client thread) = .flushUnlocking) :
    ∃ early earlier late,
      observed = early ++ late ∧
        earlier.1.phase thread = state.1.phase thread ∧
        Since config uses allowed thread early earlier late state ∧
        (FileSink.text (FileSink.records (seconds early))).length ≤
          state.2.passed := by
  obtain ⟨early, earlier, late, latest, there, since⟩ :=
    FlushBegan.of_reaches reached thread (by simp [phase])
  have watched :=
    FileSink.FlushWatched.of_reaches (reaches_sink reached) (.client thread)
  rw [phase] at watched
  obtain ⟨before, during, shape, last, inFile⟩ := watched
  have called :
      Latest (.flushCalled (.client thread)) (seconds observed)
        (seconds early) (seconds late) :=
    ⟨by rw [latest.shape, seconds_append, seconds_cons_inr],
      fun isSeen => latest.absent (mem_seconds.mp isSeen)⟩
  obtain ⟨rfl, _⟩ := called.unique ⟨shape, last⟩
  exact ⟨early, earlier, _, latest.shape, there, since, inFile⟩

omit [DecidableEq Thread] in
/-- A client at a position of the sink is about to complete a call on it. -/
theorem caller?_of_loop
    {logger : Async.State Thread}
    {loop : Nat → Async.Phase Thread}
    {position : Nat}
    (isLoop : Async.Loop loop)
    (phase : logger.phase thread = loop position)
    (more : position < config.sinkCount)
    (isUsed : uses position = true) :
    caller? config uses logger (.client thread) =
      some (.client thread) := by
  refine caller?_eq_client.mpr ⟨rfl, position, ?_, more, isUsed⟩
  rcases isLoop with rfl | rfl
  · exact Or.inl phase
  · exact Or.inr phase

/-- Every permitted step knows what the clients have left in the file. -/
theorem swept_step
    (reached :
      (machine Thread config).ReachesBy (Permitted config uses allowed)
        observed state)
    (swept :
      ∀ thread, Swept config uses allowed observed state thread)
    (permitted : Permitted config uses allowed state event)
    (taken :
      (machine Thread config).step? state event = some (next, emitted))
    (thread : Thread) :
    Swept config uses allowed (observed ++ emitted) next thread := by
  have linked := Async.Linked.of_reaches (reaches_logger reached)
  intro loop isLoop last arrived position passed isUsed
  cases Machine.CoupledStep.of_step? taken with
  | first own moved seen stepped =>
      have stay
          {last : Nat}
          (phase : state.1.phase thread = loop last)
          (earlier : position < last) :=
        (swept thread).stay isLoop phase linked taken (Nat.le_refl _)
          earlier isUsed
      rcases isLoop.of_step? arrived stepped with
        same | rfl | ⟨before, rfl, rfl, phase, more⟩
      · exact stay same passed
      · cases passed
      · rcases Nat.lt_succ_iff_lt_or_eq.mp passed with less | rfl
        · exact stay phase less
        · have atSink :
              caller? config uses state.1 (.client thread) =
                some (.client thread) :=
            caller?_eq_client.mpr
              ⟨rfl, position, by
                rcases isLoop with rfl | rfl
                · exact Or.inl phase
                · exact Or.inr phase, more, isUsed⟩
          rw [permitted.2] at atSink
          cases atSink
  | second called answer answered joined =>
      have sinkStep : FileSink.Step state.2 called answered answer :=
        .of_step? joined
      exact (swept thread).stay isLoop arrived linked taken
        (sinkStep.passed_le
          (FileSink.passed_le_of_reaches (reaches_sink reached))).1
        passed isUsed
  | both own called moved answer seen answered stepped joined =>
      cases called with
      | advance caller =>
          obtain ⟨_, isCaller, returning⟩ := permitted
          have sinkStep :
              FileSink.Step state.2 (.advance caller) answered answer :=
            .of_step? joined
          have grows :=
            (sinkStep.passed_le
              (FileSink.passed_le_of_reaches (reaches_sink reached))).1
          have stay
              {last : Nat}
              (phase : state.1.phase thread = loop last)
              (earlier : position < last) :=
            (swept thread).stay isLoop phase linked taken grows earlier
              isUsed
          rcases isLoop.of_step? arrived stepped with
            same | rfl | ⟨before, rfl, rfl, phase, more⟩
          · exact stay same passed
          · cases passed
          · rcases Nat.lt_succ_iff_lt_or_eq.mp passed with less | rfl
            · exact stay phase less
            · have atSink := caller?_of_loop isLoop phase more isUsed
              cases isCaller.symm.trans atSink
              have fits := AllFit.of_reaches reached (.client thread)
              rcases (returned sinkStep returning).2 with
                ⟨entry, tm, inserting, _⟩ | ⟨flushed, _⟩
              · rw [inserting] at fits
                exact fits.elim
              · obtain ⟨early, moment, late, rfl, there, since, inFile⟩ :=
                  text_length_le_of_flushed reached flushed
                exact ⟨early, moment, late ++ _, by simp,
                  there.trans phase,
                  since.step (isLoop.busy phase) linked taken,
                  inFile.trans grows⟩
      | _ =>
          exact permitted.elim

/-- In every reachable state it is known what is in the file. -/
theorem Swept.of_reaches
    (reached :
      (machine Thread config).ReachesBy (Permitted config uses allowed)
        observed state)
    (thread : Thread) :
    Swept config uses allowed observed state thread :=
  reached.invariant
    (fun observed state =>
      ∀ thread, Swept config uses allowed observed state thread)
    (by
      intro thread loop isLoop last phase
      exact (isLoop.busy phase rfl).elim)
    (fun before swept permitted taken =>
      swept_step before swept permitted taken)
    thread

/-- A step that shows the logger's observations is a step of the logger. -/
theorem first_of_step?
    {own : Async.Event Thread}
    {seen : Async.Obs Thread}
    (taken :
      (machine Thread config).step? state (.first own) =
        some (next, [.inl seen])) :
    state.1.step? config own = some (next.1, [seen]) ∧
      next.2 = state.2 := by
  obtain ⟨⟨moved, emitted⟩, stepped, shape⟩ :=
    Option.map_eq_some_iff.mp taken
  cases emitted with
  | nil =>
      cases shape
  | cons first rest =>
      simp only [List.map_cons, Prod.mk.injEq, List.cons.injEq,
        Sum.inl.injEq, List.map_eq_nil_iff] at shape
      obtain ⟨rfl, rfl, rfl⟩ := shape
      exact ⟨stepped, rfl⟩

/-- What was shown at an earlier moment is in the file. -/
theorem text_prefix_file
    (reached :
      (machine Thread config).ReachesBy (Permitted config uses allowed)
        (early ++ late) state)
    (inFile :
      (FileSink.text (FileSink.records (seconds early))).length ≤
        state.2.passed) :
    (FileSink.text
        ((FileSink.writes (seconds early)).map Prod.snd)).toList <+:
      state.2.file := by
  have inSink := reaches_sink reached
  rw [seconds_append] at inSink
  rw [FileSink.map_snd_writes]
  exact (FileSink.Whole.of_reaches inSink).text_prefix_file inFile

/--
When `flush` of a live logger of positive capacity returns, the file shows
every entry whose `log()` call had returned before the call began, unless the
overflow policy has discarded it: the file begins with whole records, among
which those from a position of the sink are of what had been written there, the
entry included.
-/
theorem flushed_entries_are_in_the_file
    [Fintype Thread]
    {before during : List (Obs Thread)}
    {caller : Thread}
    {own : Async.Event Thread}
    {item : Async.Item Thread}
    {position : Nat}
    (positive : 0 < config.policy.queueCapacity)
    (reached :
      (machine Thread config).ReachesBy (Permitted config uses Async.Alive)
        (before ++ .inl (.flushCalled thread) :: during) state)
    (sameCall : .flushCalled thread ∉ firsts during)
    (returns :
      (machine Thread config).step? state (.first own) =
        some (next, [.inl (.flushReturned thread)]))
    (logged : .logReturned caller (some item) ∈ firsts before)
    (isUsed : uses position = true)
    (inside : position < config.sinkCount) :
    Async.Discarded config
        (firsts (before ++ .inl (.flushCalled thread) :: during)) item ∨
      ∃ (earlier : List (Async.Obs Thread))
        (shown : List (Caller Thread × LogEntry × Tm)),
        earlier <+:
            firsts (before ++ .inl (.flushCalled thread) :: during) ∧
          item ∈ Async.written position earlier ∧
          (lane (.iteration position) shown).map Prod.fst =
            (Async.written position earlier).map Queue.Item.value ∧
          (FileSink.text (shown.map Prod.snd)).toList <+: next.2.file := by
  obtain ⟨stepped, sameSink⟩ := first_of_step? returns
  obtain ⟨last, phase, done⟩ :=
    (Async.Step.of_step? stepped).flushSinks_of_returned
      (List.mem_singleton.mpr rfl)
  obtain ⟨early, moment, late, shape, there, since, inFile⟩ :=
    Swept.of_reaches reached thread .flushSinks (Or.inl rfl) last phase
      position (Nat.lt_of_lt_of_le inside done) isUsed
  have watched :=
    Async.FlushWatched.of_reaches positive (reaches_logger since.reached)
      thread
  rw [there] at watched
  obtain ⟨began, first, rest, latest, accounted, _⟩ := watched
  rw [shape, firsts_append]
  -- The call that returns is the one that was in its loop at that moment.
  have calledNow :
      Latest (.flushCalled thread) (firsts (early ++ late)) (firsts before)
        (firsts during) :=
    ⟨by rw [← shape, firsts_append, firsts_cons_inl], sameCall⟩
  rw [firsts_append] at calledNow
  obtain ⟨rfl, _⟩ := (latest.append since.sameCall).unique calledNow
  have atMoment :
      Async.Accounted config (firsts early) item := by
    have later :
        Async.Accounted config
          (firsts before ++ .flushCalled thread :: first ++ rest) item :=
      (accounted caller item logged).append
    rw [latest.shape]
    simpa using later
  rcases atMoment with ⟨_, isWritten⟩ | discarded
  · right
    refine ⟨firsts early, FileSink.writes (seconds early),
      List.prefix_append _ _, isWritten position inside,
      Recorded.of_reaches since.reached position isUsed, ?_⟩
    rw [sameSink]
    rw [shape] at reached
    exact text_prefix_file reached inFile
  · exact Or.inl discarded.append

/-- Another thread flushes the logger after one entry; the file shows it. -/
theorem flushed_entries_are_in_the_file_of_one_entry :
    ∃ (observed : List (Obs (Fin 2)))
      (state next : State (Fin 2))
      (item : Async.Item (Fin 2)),
      (machine (Fin 2) { module := "net", sinkCount := 1 }).ReachesBy
          (Permitted { module := "net", sinkCount := 1 } (fun _ => true)
            Async.Alive)
          observed state ∧
        (machine (Fin 2) { module := "net", sinkCount := 1 }).step? state
            (.first (.client 1)) =
          some (next, [.inl (.flushReturned 1)]) ∧
        item.value.message = "kept" ∧
        ∃ (earlier : List (Async.Obs (Fin 2)))
          (shown : List (Caller (Fin 2) × LogEntry × Tm)),
          item ∈ Async.written 0 earlier ∧
            (lane (.iteration 0) shown).map Prod.fst =
              (Async.written 0 earlier).map Queue.Item.value ∧
            (FileSink.text (shown.map Prod.snd)).toList <+:
              next.2.file := by
  obtain ⟨observed, state, reached, feature⟩ :=
    (machine (Fin 2) { module := "net", sinkCount := 1 }).exists_reachesBy
      (Permitted { module := "net", sinkCount := 1 } (fun _ => true)
        Async.Alive)
      (List.flatten
        [[.first (.log 0 .warn "kept" false ⟨0, ⟨0, 1, 1, false, 0, 0⟩⟩),
        .first (.client 0), .first (.advance (.client 0)),
        .first (.notifyOne (.client 0) .worker), .first (.client 0),
        .first (.client 0), .first .worker, .first (.advance .worker),
        .first (.advance .worker), .first .worker, .first .worker,
        .second (.write (.iteration 0)
          (buildEntry "net" .warn "kept" false
            ⟨0, ⟨0, 1, 1, false, 0, 0⟩⟩) ⟨1, 0, 0, 1, 0, 70⟩)],
        List.replicate 14 (.second (.advance (.iteration 0))),
        [.both (.write 0) (.advance (.iteration 0)),
          .first .worker, .first .worker, .first .worker,
          .first (.flush 1), .first (.client 1),
          .second (.flush (.client 1)), .second (.advance (.client 1)),
          .second (.advance (.client 1)),
          .both (.client 1) (.advance (.client 1))]])
      (fun observed state =>
        decide
            (observed =
              observed.take 9 ++ .inl (.flushCalled 1) ::
                observed.drop 10 ∧
              .flushCalled 1 ∉ firsts (observed.drop 10) ∧
              .logReturned 0
                  (some
                    { producer := .client 0
                      index := 0
                      value :=
                        buildEntry "net" .warn "kept" false
                          ⟨0, ⟨0, 1, 1, false, 0, 0⟩⟩ }) ∈
                firsts (observed.take 9) ∧
              Queue.refused (Async.trace (firsts observed)) = [] ∧
              ((machine (Fin 2)
                    { module := "net", sinkCount := 1 }).step? state
                  (.first (.client 1))).map Prod.snd =
                some [.inl (.flushReturned 1)]))
      (by decide +kernel)
  obtain ⟨shape, sameCall, logged, nothing, returned⟩ :=
    of_decide_eq_true feature
  obtain ⟨⟨next, _⟩, returns, rfl⟩ := Option.map_eq_some_iff.mp returned
  rw [shape] at reached nothing
  rcases flushed_entries_are_in_the_file (by decide) reached sameCall
      returns logged rfl Nat.zero_lt_one with
    (⟨_, isRefused⟩ | ⟨policy, _⟩) | ⟨earlier, entries, _, found⟩
  · rw [nothing] at isRefused
    cases isRefused
  · cases policy
  · exact ⟨_, state, next, _, reached, returns, rfl, earlier, entries,
      found⟩

end ConcLogger.FileLogger
