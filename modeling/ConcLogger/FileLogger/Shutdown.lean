import ConcLogger.Async.Schedules
import ConcLogger.FileLogger.Durability

namespace ConcLogger.FileLogger

open Concurrency
open Sinks

/-!
# What `~Logger` leaves in the file

The destructor flushes the sink after the worker has ended.  By then everything
that was inserted and not evicted has been written; a logger that alone has the
sink leaves a file that shows exactly that.
-/

variable
  {Thread : Type}
  [DecidableEq Thread]
  {config : LoggerConfig}
  {uses : Positions}
  {observed emitted : List (Obs Thread)}
  {state next : State Thread}
  {event : Event Thread}
  {thread : Thread}
  {position : Nat}

/-- What has been inserted and not evicted, in the order of insertion. -/
def survivingEntries (observed : List (Async.Obs Thread)) : List LogEntry :=
  (survivors (Queue.inserted (Async.trace observed))
    (Queue.evicted (Async.trace observed))).map Queue.Item.value

/-- At its positions the destructor finds everything written and flushes it. -/
private theorem exists_flushed
    (reached :
      (machine Thread config).ReachesBy
        (Permitted config uses Async.Orderly) observed state)
    {last : Nat}
    (phase : state.1.phase thread = .destroySinks last)
    (passed : position < last)
    (isUsed : uses position = true)
    (inside : position < config.sinkCount) :
    state.1.Finished ∧
      ∃ early late,
        observed = early ++ late ∧
          Recorded uses early ∧
          (Async.written position (firsts early)).map Queue.Item.value =
            survivingEntries (firsts observed) ∧
          Async.written position (firsts late) = [] ∧
          (FileSink.text (FileSink.records (seconds early))).length ≤
            state.2.passed := by
  obtain ⟨early, moment, late, rfl, there, since, inFile⟩ :=
    Swept.of_reaches reached thread .destroySinks (Or.inr rfl) last phase
      position passed isUsed
  have watched :=
    Async.DestroyWatched.of_reaches (reaches_logger since.reached) thread
  rw [there] at watched
  obtain ⟨⟨broke, finished⟩, unwritten⟩ := since.unwritten watched.1
  refine ⟨⟨broke, finished⟩, early, late, rfl,
    Recorded.of_reaches since.reached, ?_, unwritten position, inFile⟩
  rw [survivingEntries,
    ← Async.written_eq_survivors_of_finished (reaches_logger reached)
      finished inside,
    firsts_append, Async.written_append, unwritten position,
    List.append_nil]

/--
When `~Logger` returns in an orderly run, the file shows everything that was
inserted and not evicted: it begins with whole records, among which those from
a position of the sink are of these entries, each once and in the order of
insertion.
-/
theorem survivors_are_in_the_file
    {own : Async.Event Thread}
    (reached :
      (machine Thread config).ReachesBy
        (Permitted config uses Async.Orderly) observed state)
    (returns :
      (machine Thread config).step? state (.first own) =
        some (next, [.inl (.destroyReturned thread)]))
    (isUsed : uses position = true)
    (inside : position < config.sinkCount) :
    ∃ shown : List (Caller Thread × LogEntry × Tm),
      (lane (.iteration position) shown).map Prod.fst =
          survivingEntries (firsts observed) ∧
        (FileSink.text (shown.map Prod.snd)).toList <+: next.2.file := by
  obtain ⟨stepped, sameSink⟩ := first_of_step? returns
  obtain ⟨last, phase, done, _⟩ :=
    (Async.Step.of_step? stepped).destroySinks_of_returned
      (List.mem_singleton.mpr rfl)
  obtain ⟨_, early, late, rfl, recorded, survived, _, inFile⟩ :=
    exists_flushed reached phase (Nat.lt_of_lt_of_le inside done) isUsed
      inside
  rw [sameSink]
  exact ⟨FileSink.writes (seconds early),
    (recorded position isUsed).trans survived,
    text_prefix_file reached inFile⟩

/-- A blocking logger with one sink. -/
def oneFile : LoggerConfig where
  module := "net"
  sinkCount := 1
  policy := { overflowPolicy := .block }

/-- A thread logs one entry and destroys the logger before the worker has run. -/
def keptAndDestroyed (thread : Thread) : List (Event Thread) :=
  List.flatten
    [[.first (.log thread .warn "kept" false ⟨0, ⟨0, 1, 1, false, 0, 0⟩⟩),
        .first (.client thread), .first (.advance (.client thread)),
        .first (.notifyOne (.client thread) .worker),
        .first (.client thread), .first (.client thread),
        .first (.destroy thread), .first (.client thread),
        .first (.advance (.client thread)),
        .first (.advance (.client thread)),
        .first (.advance (.client thread)), .first (.client thread),
        .first .worker, .first (.advance .worker),
        .first (.advance .worker), .first .worker, .first .worker,
        .second
          (.write (.iteration 0)
            (buildEntry "net" .warn "kept" false
              ⟨0, ⟨0, 1, 1, false, 0, 0⟩⟩)
            ⟨1, 0, 0, 1, 0, 70⟩)],
      List.replicate 14 (.second (.advance (.iteration 0))),
      [.both (.write 0) (.advance (.iteration 0)),
        .first .worker, .first .worker, .first .worker, .first .worker,
        .first .worker, .first (.advance .worker), .first .worker,
        .first .worker, .first (.advance .worker), .first .worker,
        .first (.client thread), .second (.flush (.client thread)),
        .second (.advance (.client thread)),
        .second (.advance (.client thread)),
        .both (.client thread) (.advance (.client thread))]]

/-- The file holds a record of somebody else as well. -/
theorem survivors_are_in_the_file_of_shared_sink :
    ∃ (observed : List (Obs (Fin 1)))
      (state next : State (Fin 1))
      (shown : List (Caller (Fin 1) × LogEntry × Tm)),
      (machine (Fin 1) oneFile).ReachesBy
          (Permitted oneFile (fun _ => true) Async.Orderly)
          observed state ∧
        (machine (Fin 1) oneFile).step? state (.first (.client 0)) =
          some (next, [.inl (.destroyReturned 0)]) ∧
        (FileSink.writes (seconds observed)).length = 2 ∧
        ((lane (.iteration 0) shown).map fun record =>
          record.1.message) = ["kept"] ∧
        (FileSink.text (shown.map Prod.snd)).toList <+: next.2.file := by
  obtain ⟨observed, state, reached, feature⟩ :=
    (machine (Fin 1) oneFile).exists_reachesBy
      (Permitted oneFile (fun _ => true) Async.Orderly)
      (List.flatten
        [[.second
            (.write (.outsider 0) (FileSink.greeting "up")
              ⟨0, 0, 0, 1, 0, 70⟩)],
          List.replicate 15 (.second (.advance (.outsider 0))),
          keptAndDestroyed 0])
      (fun observed state =>
        decide
          ((FileSink.writes (seconds observed)).length = 2 ∧
            ((survivingEntries (firsts observed)).map
              LogEntry.message) = ["kept"] ∧
            ((machine (Fin 1) oneFile).step? state
                (.first (.client 0))).map Prod.snd =
              some [.inl (.destroyReturned 0)]))
      (by decide +kernel)
  obtain ⟨both, survived, returned⟩ := of_decide_eq_true feature
  obtain ⟨⟨next, _⟩, returns, rfl⟩ := Option.map_eq_some_iff.mp returned
  obtain ⟨shown, records, inFile⟩ :=
    survivors_are_in_the_file reached returns rfl Nat.zero_lt_one
  refine ⟨observed, state, next, shown, reached, returns, both, ?_, inFile⟩
  rw [← records, List.map_map] at survived
  exact survived

/-! ## A sink of its own -/

/-- Somebody else calls the sink. -/
def Foreign : Event Thread → Prop
  | .second (.write (.outsider _) _ _)
  | .second (.flush (.outsider _)) => True
  | _ => False

instance decidableForeign : ∀ event : Event Thread, Decidable (Foreign event)
  | .second (.write (.outsider _) _ _)
  | .second (.flush (.outsider _)) => .isTrue trivial
  | .second (.write (.iteration _) _ _) | .second (.write (.client _) _ _)
  | .second (.flush (.iteration _)) | .second (.flush (.client _))
  | .second (.advance _) | .second (.pass _) | .first _ | .both _ _ =>
      .isFalse id

/-- The sink is at one position of `sinks_` and nowhere else. -/
def Alone
    (config : LoggerConfig)
    (position : Nat)
    (state : State Thread)
    (event : Event Thread) : Prop :=
  Permitted config (fun other => other == position) Async.Orderly state
      event ∧
    ¬ Foreign event

instance decidableAlone
    [Fintype Thread]
    (config : LoggerConfig)
    (position : Nat)
    (state : State Thread)
    (event : Event Thread) :
    Decidable (Alone config position state event) :=
  inferInstanceAs (Decidable (Permitted _ _ _ _ _ ∧ ¬ Foreign event))

/-- Nobody else is inside a sink of its own. -/
theorem outsider_eq_idle
    (reached :
      (machine Thread config).ReachesBy (Alone config position)
        observed state)
    (number : Nat) :
    state.2.phase (.outsider number) = .idle := by
  refine reached.invariant
    (fun _ state => state.2.phase (.outsider number) = .idle) rfl ?_
  intro observed emitted state next event _ isIdle alone taken
  by_contra inside
  have quiet
      {sink answer : FileSink.State (Caller Thread)}
      {called : FileSink.Event (Caller Thread)}
      {answered : List (FileSink.Obs (Caller Thread))}
      (step : FileSink.Step sink called answered answer)
      (before : sink.phase (.outsider number) = .idle)
      (after : answer.phase (.outsider number) ≠ .idle) :
      (∃ entry tm, called = .write (.outsider number) entry tm) ∨
        called = .flush (.outsider number) := by
    rcases inside_of_step step after with isWrite | isFlush | ⟨busy, _⟩
    · exact Or.inl isWrite
    · exact Or.inr isFlush
    · exact (busy before).elim
  cases Machine.CoupledStep.of_step? taken with
  | first own moved seen stepped =>
      exact inside isIdle
  | second called answer answered joined =>
      rcases quiet (FileSink.Step.of_step? joined) isIdle inside with
        ⟨entry, tm, rfl⟩ | rfl
      · exact alone.2 trivial
      · exact alone.2 trivial
  | both own called moved answer seen answered stepped joined =>
      rcases quiet (FileSink.Step.of_step? joined) isIdle inside with
        ⟨entry, tm, rfl⟩ | rfl
      · exact alone.1.elim
      · exact alone.1.elim

/-- In a sink of its own, the iteration at the position inserts the records. -/
theorem eq_iteration_of_inserting
    (reached :
      (machine Thread config).ReachesBy (Alone config position)
        observed state)
    {caller : Caller Thread}
    {entry : LogEntry}
    {tm : Tm}
    {rest : List String}
    (phase : state.2.phase caller = .inserting entry tm rest) :
    caller = .iteration position ∧
      ∃ item, state.1.writing? position = some item := by
  have fits := AllFit.of_reaches (reached.mono And.left) caller
  rw [phase] at fits
  cases caller with
  | iteration chosen =>
      obtain ⟨isUsed, writing⟩ := fits
      obtain rfl := eq_of_beq isUsed
      obtain ⟨item, isWriting, _⟩ := Option.map_eq_some_iff.mp writing
      exact ⟨rfl, item, isWriting⟩
  | client thread =>
      exact fits.elim
  | outsider number =>
      rw [outsider_eq_idle reached number] at phase
      cases phase

/-- A step of the sink completes one record at most. -/
theorem writes_of_step
    {sink answer : FileSink.State (Caller Thread)}
    {called : FileSink.Event (Caller Thread)}
    {answered : List (FileSink.Obs (Caller Thread))}
    (step : FileSink.Step sink called answered answer) :
    FileSink.writes answered = [] ∨
      ∃ caller entry tm rest,
        sink.phase caller = .inserting entry tm rest ∧
          FileSink.writes answered = [(caller, entry, tm)] := by
  cases step with
  | unlock caller entry tm phase =>
      exact Or.inr ⟨caller, entry, tm, [], phase, rfl⟩
  | _ =>
      exact Or.inl rfl

/-- Nobody else adds records to a sink of its own. -/
theorem lane_eq_nil_of_alone
    (reached :
      (machine Thread config).ReachesBy (Alone config position)
        observed state)
    (caller : Caller Thread)
    (other : caller ≠ .iteration position) :
    lane caller (FileSink.writes (seconds observed)) = [] := by
  refine reached.invariant
    (fun observed _ =>
      lane caller (FileSink.writes (seconds observed)) = []) rfl ?_
  intro observed emitted state next event before nothing _ taken
  have quiet
      {answer : FileSink.State (Caller Thread)}
      {called : FileSink.Event (Caller Thread)}
      {answered : List (FileSink.Obs (Caller Thread))}
      (step : FileSink.Step state.2 called answered answer) :
      lane caller (FileSink.writes answered) = [] := by
    rcases writes_of_step step with
      none | ⟨writer, entry, tm, rest, phase, one⟩
    · rw [none, lane_nil]
    · obtain ⟨rfl, _⟩ := eq_iteration_of_inserting before phase
      rw [one, lane_singleton, if_neg (Ne.symm other)]
  rw [seconds_append, FileSink.writes_append, lane_append, nothing,
    List.nil_append]
  cases Machine.CoupledStep.of_step? taken with
  | first own moved seen stepped =>
      rw [seconds_map_inl]
      rfl
  | second called answer answered joined =>
      rw [seconds_map_inr]
      exact quiet (.of_step? joined)
  | both own called moved answer seen answered stepped joined =>
      rw [seconds_append, seconds_map_inl, seconds_map_inr,
        List.nil_append]
      exact quiet (.of_step? joined)

/-- The records of a sink of its own are those from its position. -/
theorem records_eq_lane
    (others :
      ∀ caller : Caller Thread,
        caller ≠ .iteration position →
        lane caller (FileSink.writes (seconds observed)) = []) :
    FileSink.records (seconds observed) =
      lane (Caller.iteration position)
        (FileSink.writes (seconds observed)) := by
  rw [← FileSink.map_snd_writes]
  exact map_snd_eq_lane (Caller.iteration position) others

/-- Once the worker has finished, nobody is inserting into a sink of its own. -/
theorem stream_eq_of_finished
    (reached :
      (machine Thread config).ReachesBy (Alone config position)
        observed state)
    (finished : state.1.Finished) :
    state.2.stream = FileSink.text (FileSink.records (seconds observed)) := by
  refine (FileSink.Whole.of_reaches (reaches_sink reached)).between ?_
  intro caller
  cases phase : state.2.phase caller with
  | inserting entry tm rest =>
      obtain ⟨_, item, isWriting⟩ := eq_iteration_of_inserting reached phase
      obtain ⟨todo, dispatching, _⟩ :=
        Async.State.writing?_eq_some.mp isWriting
      obtain ⟨broke, control⟩ := finished
      have linked :=
        Async.Linked.of_reaches (reaches_logger (reached.mono And.left))
      rw [Async.stage_eq_ready_of_finished linked control] at dispatching
      cases dispatching
  | _ =>
      rfl

/-- If a position has written nothing since, the sink shows nothing since. -/
theorem records_eq_nil_of_unwritten
    {early late : List (Obs Thread)}
    (reached :
      (machine Thread config).ReachesBy (Alone config position)
        (early ++ late) state)
    (recorded : Recorded (fun other => other == position) early)
    (unwritten : Async.written position (firsts late) = []) :
    FileSink.records (seconds late) = [] := by
  have isUsed : (position == position) = true := by
    simp
  have whole :=
    Recorded.of_reaches (reached.mono And.left) position isUsed
  simp only [seconds_append, firsts_append, FileSink.writes_append,
    Async.written_append, lane_append, List.map_append, unwritten,
    recorded position isUsed, List.append_nil,
    List.append_right_eq_self, List.map_eq_nil_iff] at whole
  have others :
      ∀ caller : Caller Thread,
        caller ≠ .iteration position →
        lane caller (FileSink.writes (seconds late)) = [] := by
    intro caller other
    have nothing := lane_eq_nil_of_alone reached caller other
    rw [seconds_append, FileSink.writes_append, lane_append,
      List.append_eq_nil_iff] at nothing
    exact nothing.2
  rw [records_eq_lane others, whole]

/-- What the threads have logged through a blocking logger is interleaved. -/
private theorem interleaving_of_destroyReturned
    [Fintype Thread]
    {logged : List (Async.Obs Thread)}
    {logger : Async.State Thread}
    (positive : 0 < config.policy.queueCapacity)
    (block : config.policy.overflowPolicy = .block)
    (reached :
      (Async.machine Thread config).ReachesBy Async.Orderly logged logger)
    (returned : .destroyReturned thread ∈ logged)
    (inside : position < config.sinkCount) :
    Interleaving
      (fun thread =>
        (lane thread (Async.calls logged)).filterMap config.line?)
      (((Async.written position logged).map Queue.Item.value).map
        LogEntry.line) := by
  obtain ⟨schedule, lanes, entries⟩ :=
    Async.exists_schedule_of_destroyReturned positive block reached returned
  rw [entries position inside, List.map_map]
  simp only [lanes]
  exact config.interleaving_admitted schedule

/--
If a logger of positive capacity alone has the sink and is destroyed in an
orderly run, the file is exactly the text of what was inserted and not evicted,
one whole record after the other in the order of insertion.  With a logger that
blocks on overflow these are the lines that the threads have logged,
interleaved, each thread's in program order.
-/
theorem file_is_the_text_of_the_survivors
    [Fintype Thread]
    {own : Async.Event Thread}
    (positive : 0 < config.policy.queueCapacity)
    (reached :
      (machine Thread config).ReachesBy (Alone config position)
        observed state)
    (returns :
      (machine Thread config).step? state (.first own) =
        some (next, [.inl (.destroyReturned thread)]))
    (inside : position < config.sinkCount) :
    ∃ shown : List (LogEntry × Tm),
      next.2.file = (FileSink.text shown).toList ∧
        shown.map Prod.fst = survivingEntries (firsts observed) ∧
        (config.policy.overflowPolicy = .block →
          Interleaving
            (fun thread =>
              (lane thread (Async.calls (firsts observed))).filterMap
                config.line?)
            (shown.map fun record => record.1.line)) := by
  obtain ⟨stepped, sameSink⟩ := first_of_step? returns
  obtain ⟨last, phase, done, _⟩ :=
    (Async.Step.of_step? stepped).destroySinks_of_returned
      (List.mem_singleton.mpr rfl)
  have isUsed : (position == position) = true := by
    simp
  have permitted := reached.mono And.left
  obtain ⟨finished, early, late, rfl, recorded, survived, unwritten,
    inFile⟩ :=
    exists_flushed permitted phase (Nat.lt_of_lt_of_le inside done) isUsed
      inside
  have nothing := records_eq_nil_of_unwritten reached recorded unwritten
  have shown :
      (FileSink.records (seconds (early ++ late))).map Prod.fst =
        (Async.written position (firsts (early ++ late))).map
          Queue.Item.value := by
    rw [records_eq_lane (lane_eq_nil_of_alone reached)]
    exact Recorded.of_reaches permitted position isUsed
  have isSurvived :
      (Async.written position (firsts (early ++ late))).map
          Queue.Item.value =
        survivingEntries (firsts (early ++ late)) := by
    rw [← survived, firsts_append, Async.written_append, unwritten,
      List.append_nil]
  have stream := stream_eq_of_finished reached finished
  refine ⟨FileSink.records (seconds (early ++ late)), ?_,
    shown.trans isSurvived, fun block => ?_⟩
  · rw [sameSink, FileSink.State.file, stream]
    refine List.take_of_length_le ?_
    rw [seconds_append, FileSink.records_append, nothing, List.append_nil,
      String.length_toList]
    exact inFile
  · obtain ⟨mover, rfl⟩ :=
      (Async.Step.of_step? stepped).client_of_destroyReturned
        (List.mem_singleton.mpr rfl)
    have continued :
        (Async.machine Thread config).ReachesBy Async.Orderly
          (firsts (early ++ late) ++ [.destroyReturned thread]) next.1 :=
      .step (.client mover) (reaches_logger permitted) trivial stepped
    have merged :=
      interleaving_of_destroyReturned positive block continued
        (List.mem_append_right _ (List.mem_singleton.mpr rfl)) inside
    have noCalls :
        Async.calls
            (firsts (early ++ late) ++ [.destroyReturned thread]) =
          Async.calls (firsts (early ++ late)) := by
      rw [Async.calls_append]
      exact List.append_nil _
    have noWrites :
        Async.written position
            (firsts (early ++ late) ++ [.destroyReturned thread]) =
          Async.written position (firsts (early ++ late)) := by
      rw [Async.written_append]
      exact List.append_nil _
    rw [noCalls, noWrites, ← shown, List.map_map] at merged
    exact merged

/-- The file of a blocking logger holds the one line that has been logged. -/
theorem file_is_the_text_of_the_survivors_of_one_entry :
    ∃ (observed : List (Obs (Fin 1)))
      (state next : State (Fin 1))
      (shown : List (LogEntry × Tm)),
      (machine (Fin 1) oneFile).ReachesBy (Alone oneFile 0)
          observed state ∧
        (machine (Fin 1) oneFile).step? state (.first (.client 0)) =
          some (next, [.inl (.destroyReturned 0)]) ∧
        next.2.file =
          "1970-01-01 00:00:01 [WARN ] [net] [T0]  kept\n".toList ∧
        next.2.file = (FileSink.text shown).toList ∧
        Interleaving
          (fun thread =>
            (lane thread (Async.calls (firsts observed))).filterMap
              oneFile.line?)
          (shown.map fun record => record.1.line) := by
  obtain ⟨observed, state, reached, feature⟩ :=
    (machine (Fin 1) oneFile).exists_reachesBy (Alone oneFile 0)
      (keptAndDestroyed 0)
      (fun _ state =>
        decide
          (((machine (Fin 1) oneFile).step? state
                (.first (.client 0))).map
              (fun result => (result.2, result.1.2.file)) =
            some
              ([.inl (.destroyReturned 0)],
                "1970-01-01 00:00:01 [WARN ] [net] [T0]  kept\n".toList)))
      (by decide +kernel)
  obtain ⟨⟨next, seen⟩, returns, checked⟩ :=
    Option.map_eq_some_iff.mp (of_decide_eq_true feature)
  obtain ⟨rfl, contents⟩ := Prod.mk.inj checked
  obtain ⟨shown, exactly, _, merged⟩ :=
    file_is_the_text_of_the_survivors (by decide) reached returns
      Nat.zero_lt_one
  exact ⟨observed, state, next, shown, reached, returns, contents, exactly,
    merged rfl⟩

end ConcLogger.FileLogger
