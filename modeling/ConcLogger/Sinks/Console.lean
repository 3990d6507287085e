import ConcLogger.Concurrency.Lanes
import ConcLogger.Concurrency.Threads
import ConcLogger.Sinks.Threads

namespace ConcLogger.Sinks

open Concurrency

/-!
# Lines on the console

`StdoutSink::write` inserts a line and its line feed one after the other,
under the `mutex_` of its own instance.  Another instance has another mutex:
lines stay whole as long as nobody inserts one while a different line still
waits for its line feed.
-/

variable {Thread Sink : Type}

/-- The line that a thread has inserted without its line feed. -/
def Phase.openLine? : Phase Sink → Option String
  | .ending _ entry tm => some (stdoutRecord entry tm)
  | _ => none

/-- The next step inserts a line into `std::cout`. -/
def Phase.printsLine (kind : Sink → Kind) : Phase Sink → Bool
  | .printing sink _ _ => kind sink == .stdout
  | _ => false

/-- A `write` that has not returned. -/
def Phase.writing : Phase Sink → Bool
  | .idle | .flushLocking _ | .flushUnlocking _ => false
  | _ => true

/-- A line of a `StdoutSink` that has its line feed. -/
def Obs.endedLine? (kind : Sink → Kind) :
    Obs Thread Sink → Option (Thread × String)
  | .ended thread sink record =>
      if kind sink = .stdout then some (thread, record) else none
  | _ => none

/-- A line of a `StdoutSink` whose `write` is complete. -/
def Obs.wroteLine? (kind : Sink → Kind) :
    Obs Thread Sink → Option (Thread × String)
  | .wrote thread sink record =>
      if kind sink = .stdout then some (thread, record) else none
  | _ => none

/-- The lines that have their line feed, in the order in which they got it. -/
def endedLines
    (kind : Sink → Kind)
    (observed : List (Obs Thread Sink)) :
    List (Thread × String) :=
  observed.filterMap (Obs.endedLine? kind)

/-- The lines of the complete `write` calls on `StdoutSink`s. -/
def wroteLines
    (kind : Sink → Kind)
    (observed : List (Obs Thread Sink)) :
    List (Thread × String) :=
  observed.filterMap (Obs.wroteLine? kind)

/-- Whole lines, one after the other. -/
def consoleText (lines : List String) : String :=
  String.join (lines.map fun line => line ++ "\n")

/--
Whenever no `write` is in progress, the console shows one whole line for each
complete `write` on a `StdoutSink` and nothing else.
-/
def LinesWhole
    (kind : Sink → Kind)
    (observed : List (Obs Thread Sink))
    (state : State Thread Sink) : Prop :=
  (∀ thread, (state.phase thread).writing = false) →
  ∃ lines,
    lines.Perm ((wroteLines kind observed).map Prod.snd) ∧
      state.console = consoleText lines

/-- No line is inserted while another one waits for its line feed. -/
def LinesApart
    (kind : Sink → Kind)
    (state : State Thread Sink) :
    Event Thread Sink → Prop
  | .advance thread =>
      (state.phase thread).printsLine kind = true →
      ∀ other, (state.phase other).openLine? = none
  | _ => True

instance decidableLinesApart
    [Fintype Thread]
    (kind : Sink → Kind)
    (state : State Thread Sink) :
    ∀ event, Decidable (LinesApart kind state event)
  | .advance thread =>
      inferInstanceAs
        (Decidable
          ((state.phase thread).printsLine kind = true →
            ∀ other, (state.phase other).openLine? = none))
  | .write _ _ _ | .flush _ _ =>
      .isTrue trivial

/-! ## Simple facts about lines -/

section Lines

variable
  (kind : Sink → Kind)
  (first second : List (Obs Thread Sink))

@[simp] theorem endedLines_append :
    endedLines kind (first ++ second) =
      endedLines kind first ++ endedLines kind second :=
  List.filterMap_append

@[simp] theorem wroteLines_append :
    wroteLines kind (first ++ second) =
      wroteLines kind first ++ wroteLines kind second :=
  List.filterMap_append

@[simp] theorem endedLines_nil :
    endedLines kind ([] : List (Obs Thread Sink)) = [] :=
  rfl

@[simp] theorem wroteLines_nil :
    wroteLines kind ([] : List (Obs Thread Sink)) = [] :=
  rfl

@[simp] theorem consoleText_nil : consoleText [] = "" :=
  rfl

theorem consoleText_concat
    (lines : List String)
    (line : String) :
    consoleText (lines ++ [line]) =
      consoleText lines ++ line ++ "\n" := by
  simp [consoleText, String.append_assoc]

end Lines

/-! ## What a phase tells about a sink -/

/-- The sink whose `mutex_` the thread holds. -/
def Phase.holding? : Phase Sink → Option Sink
  | .printing sink _ _ | .ending sink _ _ | .unlocking sink _ _
  | .flushUnlocking sink => some sink
  | _ => none

/-- Whoever is inside the critical section of a sink holds its mutex. -/
def MutexHeld (state : State Thread Sink) : Prop :=
  ∀ thread sink,
    (state.phase thread).holding? = some sink →
    state.mutex sink = some thread

/-- Only a `StdoutSink` inserts a line feed on its own. -/
def EndsOnStdout
    (kind : Sink → Kind)
    (state : State Thread Sink) : Prop :=
  ∀ thread sink entry tm,
    state.phase thread = .ending sink entry tm →
    kind sink = .stdout

section Holding

variable
  [DecidableEq Thread]
  [DecidableEq Sink]
  {kind : Sink → Kind}
  {calendar : Calendar}
  {state next : State Thread Sink}
  {event : Event Thread Sink}
  {observed emitted : List (Obs Thread Sink)}
  {allowed : State Thread Sink → Event Thread Sink → Prop}

namespace MutexHeld

variable {thread : Thread} {phase : Phase Sink}

omit [DecidableEq Sink] in
/-- A thread moves without acquiring or releasing a mutex. -/
private theorem move
    (held : MutexHeld state)
    (moved : next.phase = Function.update state.phase thread phase)
    (mutex : next.mutex = state.mutex)
    (same : phase.holding? = (state.phase thread).holding?) :
    MutexHeld next := by
  rw [MutexHeld, moved, mutex]
  refine forall_update
    (fun other (phase : Phase Sink) =>
      ∀ sink, phase.holding? = some sink → state.mutex sink = some other)
    (fun other _ => held other) ?_
  rw [same]
  exact held thread

/-- A thread acquires a mutex that nobody holds. -/
private theorem lock
    (held : MutexHeld state)
    {sink : Sink}
    (free : state.mutex sink = none)
    (moved : next.phase = Function.update state.phase thread phase)
    (mutex :
      next.mutex = Function.update state.mutex sink (some thread))
    (holds : phase.holding? = some sink) :
    MutexHeld next := by
  rw [MutexHeld, moved]
  refine forall_update
    (fun other (phase : Phase Sink) =>
      ∀ taken, phase.holding? = some taken → next.mutex taken = some other)
    ?_ ?_
  · intro other _ taken theirs
    have before := held other taken theirs
    rw [mutex, Function.update_of_ne ?_]
    · exact before
    · rintro rfl
      rw [free] at before
      cases before
  · intro taken own
    rw [holds] at own
    cases own
    rw [mutex, Function.update_self]

/-- A thread releases the mutex that it holds. -/
private theorem unlock
    (held : MutexHeld state)
    {sink : Sink}
    (holds : (state.phase thread).holding? = some sink) :
    MutexHeld (state.unlock thread sink) := by
  refine forall_update
    (fun other (phase : Phase Sink) =>
      ∀ taken,
        phase.holding? = some taken →
        (state.unlock thread sink).mutex taken = some other)
    ?_ ?_
  · intro other different taken theirs
    have before := held other taken theirs
    refine (Function.update_of_ne ?_ _ _).trans before
    rintro rfl
    rw [held thread taken holds] at before
    cases before
    exact different rfl
  · intro taken own
    cases own

/-- Every step keeps the mutexes with those who hold them. -/
theorem step
    (held : MutexHeld state)
    (step : Step kind calendar state event emitted next) :
    MutexHeld next := by
  cases step with
  | write thread sink entry phase | flush thread sink phase
  | convert thread sink entry phase | copy thread sink entry phase
  | printLine thread sink entry tm phase
  | printFile thread sink entry tm phase
  | endLine thread sink entry tm phase =>
      exact held.move rfl rfl (by rw [phase]; rfl)
  | lock thread sink entry tm phase free
  | flushLock thread sink phase free =>
      exact held.lock free rfl rfl rfl
  | unlock thread sink entry tm phase
  | flushUnlock thread sink phase =>
      exact held.unlock (by rw [phase]; rfl)

/-- In every reachable state the mutexes are with those who hold them. -/
theorem of_reaches
    (reached :
      (machine Thread Sink kind calendar).ReachesBy allowed
        observed state) :
    MutexHeld state :=
  reached.invariant
    (fun _ state => MutexHeld state)
    (by
      intro thread sink holds
      cases holds)
    (fun _ held _ taken => held.step (Step.of_step? taken))

end MutexHeld

/-- Every step leaves lone line feeds to the `StdoutSink`s. -/
theorem EndsOnStdout.step
    (ends : EndsOnStdout kind state)
    (step : Step kind calendar state event emitted next) :
    EndsOnStdout kind next := by
  have move
      (thread : Thread)
      (phase : Phase Sink)
      (moved :
        ∀ sink entry tm,
          phase = .ending sink entry tm → kind sink = .stdout) :
      ∀ other sink entry tm,
        Function.update state.phase thread phase other =
          .ending sink entry tm →
        kind sink = .stdout :=
    forall_update
      (fun _ (phase : Phase Sink) =>
        ∀ sink entry tm,
          phase = .ending sink entry tm → kind sink = .stdout)
      (fun other _ => ends other) moved
  cases step with
  | printLine thread sink entry tm phase isStdout =>
      apply move thread
      rintro sink entry tm shape
      cases shape
      exact isStdout
  | write thread | flush thread | convert thread | copy thread
  | lock thread | printFile thread | endLine thread | unlock thread
  | flushLock thread | flushUnlock thread =>
      exact move thread _ (by simp)

/-- In every reachable state lone line feeds belong to `StdoutSink`s. -/
theorem EndsOnStdout.of_reaches
    (reached :
      (machine Thread Sink kind calendar).ReachesBy allowed
        observed state) :
    EndsOnStdout kind state :=
  reached.invariant
    (fun _ state => EndsOnStdout kind state)
    (by
      intro thread sink entry tm phase
      cases phase)
    (fun _ ends _ taken => ends.step (Step.of_step? taken))

end Holding

/-! ## Lines that wait for their line feed -/

/-- The line that waits for its line feed, if there is one. -/
def Opened
    (state : State Thread Sink)
    (opened : Option (Thread × String)) : Prop :=
  ∀ thread line,
    opened = some (thread, line) ↔
      (state.phase thread).openLine? = some line

/-- What the console shows besides ended lines is the open line. -/
def Tidy
    (kind : Sink → Kind)
    (observed : List (Obs Thread Sink))
    (state : State Thread Sink) : Prop :=
  ∃ opened,
    Opened state opened ∧
      state.console =
        consoleText ((endedLines kind observed).map Prod.snd) ++
          (opened.map Prod.snd).getD ""

section Steps

variable
  [DecidableEq Thread]
  [DecidableEq Sink]
  {kind : Sink → Kind}
  {calendar : Calendar}
  {state next : State Thread Sink}
  {event : Event Thread Sink}
  {observed emitted : List (Obs Thread Sink)}
  {thread : Thread}
  {phase : Phase Sink}

omit [DecidableEq Sink] in
/-- A thread that neither opens nor ends a line leaves the open line alone. -/
private theorem Opened.move
    {opened : Option (Thread × String)}
    (isOpened : Opened state opened)
    (moved : next.phase = Function.update state.phase thread phase)
    (before : (state.phase thread).openLine? = none)
    (after : phase.openLine? = none) :
    Opened next opened := by
  intro other line
  rw [isOpened other line, moved]
  by_cases same : other = thread
  · subst same
    simp [before, after]
  · rw [Function.update_of_ne same]

omit [DecidableEq Sink] in
/-- A thread opens a line when none is open. -/
private theorem Opened.start
    {sink : Sink}
    {entry : LogEntry}
    {tm : Tm}
    (closed : ∀ other, (state.phase other).openLine? = none)
    (moved :
      next.phase =
        Function.update state.phase thread (.ending sink entry tm)) :
    Opened next (some (thread, stdoutRecord entry tm)) := by
  intro other line
  rw [moved]
  by_cases same : other = thread
  · subst same
    simp [Phase.openLine?]
  · rw [Function.update_of_ne same, closed]
    simp [Ne.symm same]

omit [DecidableEq Sink] in
/-- A thread that ends its line leaves none open. -/
private theorem Opened.finish
    {opened : Option (Thread × String)}
    (isOpened : Opened state opened)
    {line : String}
    (own : (state.phase thread).openLine? = some line)
    (moved : next.phase = Function.update state.phase thread phase)
    (after : phase.openLine? = none) :
    Opened next none := by
  intro other waiting
  rw [moved]
  by_cases same : other = thread
  · subst same
    simp [after]
  · rw [Function.update_of_ne same]
    simp only [reduceCtorEq, false_iff]
    intro isOpen
    have theirs := (isOpened other waiting).mpr isOpen
    rw [(isOpened thread line).mpr own] at theirs
    cases theirs
    exact same rfl

omit [DecidableEq Thread] [DecidableEq Sink] in
/-- Without a waiting line none is open. -/
private theorem Opened.eq_none
    {opened : Option (Thread × String)}
    (isOpened : Opened state opened)
    (closed : ∀ other, (state.phase other).openLine? = none) :
    opened = none := by
  rw [Option.eq_none_iff_forall_ne_some]
  rintro ⟨other, line⟩ isSome
  have isOpen := (isOpened other line).mp isSome
  rw [closed] at isOpen
  cases isOpen

omit [DecidableEq Sink] in
/-- A step that inserts nothing into the console keeps it tidy. -/
private theorem Tidy.move
    (tidy : Tidy kind observed state)
    (moved : next.phase = Function.update state.phase thread phase)
    (console : next.console = state.console)
    (before : (state.phase thread).openLine? = none)
    (after : phase.openLine? = none)
    (silent : endedLines kind emitted = []) :
    Tidy kind (observed ++ emitted) next := by
  obtain ⟨opened, isOpened, text⟩ := tidy
  refine ⟨opened, isOpened.move moved before after, ?_⟩
  rw [console, endedLines_append, silent, List.append_nil]
  exact text

/-- Steps that keep the lines apart keep the console tidy. -/
theorem Tidy.step
    (tidy : Tidy kind observed state)
    (ends : EndsOnStdout kind state)
    (apart : LinesApart kind state event)
    (step : Step kind calendar state event emitted next) :
    Tidy kind (observed ++ emitted) next := by
  cases step with
  | write thread sink entry phase | flush thread sink phase
  | convert thread sink entry phase | copy thread sink entry phase
  | lock thread sink entry tm phase
  | flushLock thread sink phase | flushUnlock thread sink phase =>
      exact tidy.move rfl rfl (by rw [phase]; rfl) rfl rfl
  | unlock thread sink entry tm phase =>
      exact tidy.move rfl rfl (by rw [phase]; rfl) rfl rfl
  | printFile thread sink entry tm phase isFile =>
      refine tidy.move rfl rfl (by rw [phase]; rfl) rfl ?_
      simp [endedLines, Obs.endedLine?, isFile]
  | printLine thread sink entry tm phase isStdout =>
      have closed : ∀ other, (state.phase other).openLine? = none :=
        apart (by simp [phase, Phase.printsLine, isStdout])
      have silent :
          endedLines kind
              [(.printed thread sink entry (stdoutRecord entry tm) :
                Obs Thread Sink)] =
            [] :=
        rfl
      obtain ⟨opened, isOpened, text⟩ := tidy
      obtain rfl := isOpened.eq_none closed
      refine ⟨_, Opened.start closed rfl, ?_⟩
      rw [endedLines_append, silent, List.append_nil]
      simp [text]
  | endLine thread sink entry tm phase =>
      have isStdout := ends thread sink entry tm phase
      have own :
          (state.phase thread).openLine? =
            some (stdoutRecord entry tm) := by
        rw [phase]
        rfl
      have line :
          endedLines kind
              [(.ended thread sink ((kind sink).record entry tm) :
                Obs Thread Sink)] =
            [(thread, stdoutRecord entry tm)] := by
        simp [endedLines, Obs.endedLine?, isStdout, Kind.record]
      obtain ⟨opened, isOpened, text⟩ := tidy
      have isOwn := (isOpened thread _).mpr own
      refine ⟨none, isOpened.finish own rfl rfl, ?_⟩
      rw [endedLines_append, line, List.map_append, List.map_singleton,
        consoleText_concat]
      simp [text, isOwn]

/-- In every run that keeps the lines apart the console is tidy. -/
theorem Tidy.of_reaches
    (reached :
      (machine Thread Sink kind calendar).ReachesBy (LinesApart kind)
        observed state) :
    Tidy kind observed state :=
  reached.invariant (Tidy kind)
    ⟨none, by
      intro thread line
      simp [machine, State.initial, Phase.openLine?], rfl⟩
    (fun before tidy apart taken =>
      tidy.step (EndsOnStdout.of_reaches before) apart
        (Step.of_step? taken))

/-! ## Lines of calls that have not returned -/

omit [DecidableEq Thread] [DecidableEq Sink] in
/-- The line that has its line feed while the `write` still holds the mutex. -/
def Phase.endedLine (kind : Sink → Kind) : Phase Sink → List String
  | .unlocking sink entry tm =>
      if kind sink = .stdout then [stdoutRecord entry tm] else []
  | _ => []

/-- Each thread has returned from its ended lines, but for the one it is at. -/
def Returned
    (kind : Sink → Kind)
    (observed : List (Obs Thread Sink))
    (state : State Thread Sink) : Prop :=
  ∀ thread,
    lane thread (endedLines kind observed) =
      lane thread (wroteLines kind observed) ++
        (state.phase thread).endedLine kind

omit [DecidableEq Sink] in
/-- A step that ends no line and returns from none. -/
private theorem Returned.move
    (returned : Returned kind observed state)
    (moved : next.phase = Function.update state.phase thread phase)
    (before : (state.phase thread).endedLine kind = [])
    (after : phase.endedLine kind = [])
    (ends : endedLines kind emitted = [])
    (returns : wroteLines kind emitted = []) :
    Returned kind (observed ++ emitted) next := by
  rw [Returned, moved, endedLines_append, wroteLines_append, ends,
    returns, List.append_nil, List.append_nil]
  refine forall_update
    (fun other (phase : Phase Sink) =>
      lane other (endedLines kind observed) =
        lane other (wroteLines kind observed) ++ phase.endedLine kind)
    (fun other _ => returned other) ?_
  rw [after, ← before]
  exact returned thread

omit [DecidableEq Sink] in
/-- A step after which a thread has ended a line. -/
private theorem Returned.finish
    (returned : Returned kind observed state)
    (moved : next.phase = Function.update state.phase thread phase)
    (before : (state.phase thread).endedLine kind = [])
    (ends :
      endedLines kind emitted =
        (phase.endedLine kind).map (Prod.mk thread))
    (returns : wroteLines kind emitted = []) :
    Returned kind (observed ++ emitted) next := by
  intro other
  have soFar := returned other
  rw [endedLines_append, wroteLines_append, ends, returns,
    List.append_nil, lane_append, moved]
  by_cases same : other = thread
  · subst same
    rw [before, List.append_nil] at soFar
    simp [soFar]
  · simp [soFar, same, Ne.symm same]

omit [DecidableEq Sink] in
/-- A step with which a thread returns from the line that it has ended. -/
private theorem Returned.leave
    (returned : Returned kind observed state)
    (moved : next.phase = Function.update state.phase thread phase)
    (after : phase.endedLine kind = [])
    (ends : endedLines kind emitted = [])
    (returns :
      wroteLines kind emitted =
        ((state.phase thread).endedLine kind).map (Prod.mk thread)) :
    Returned kind (observed ++ emitted) next := by
  intro other
  have soFar := returned other
  rw [endedLines_append, wroteLines_append, ends, returns,
    List.append_nil, lane_append, moved]
  by_cases same : other = thread
  · subst same
    simp [soFar, after]
  · simp [soFar, same, Ne.symm same]

/-- Every step keeps ended lines and returned calls together. -/
theorem Returned.step
    (returned : Returned kind observed state)
    (ends : EndsOnStdout kind state)
    (step : Step kind calendar state event emitted next) :
    Returned kind (observed ++ emitted) next := by
  cases step with
  | write thread sink entry phase | flush thread sink phase
  | convert thread sink entry phase | copy thread sink entry phase
  | lock thread sink entry tm phase
  | printLine thread sink entry tm phase isStdout
  | flushLock thread sink phase | flushUnlock thread sink phase =>
      exact returned.move rfl (by rw [phase]; rfl) rfl rfl rfl
  | printFile thread sink entry tm phase isFile =>
      refine returned.finish rfl (by rw [phase]; rfl) ?_ rfl
      simp [endedLines, Obs.endedLine?, Phase.endedLine, isFile]
  | endLine thread sink entry tm phase =>
      have isStdout := ends thread sink entry tm phase
      refine returned.finish rfl (by rw [phase]; rfl) ?_ rfl
      simp [endedLines, Obs.endedLine?, Phase.endedLine, isStdout,
        Kind.record]
  | unlock thread sink entry tm phase =>
      refine returned.leave rfl rfl rfl ?_
      by_cases isStdout : kind sink = .stdout
      · simp [wroteLines, Obs.wroteLine?, phase, Phase.endedLine,
          isStdout, Kind.record]
      · simp [wroteLines, Obs.wroteLine?, phase, Phase.endedLine,
          isStdout]

/-- In every reachable state ended lines and calls agree. -/
theorem Returned.of_reaches
    {allowed : State Thread Sink → Event Thread Sink → Prop}
    (reached :
      (machine Thread Sink kind calendar).ReachesBy allowed
        observed state) :
    Returned kind observed state :=
  reached.invariant (Returned kind)
    (by
      intro thread
      rfl)
    (fun before returned _ taken =>
      returned.step (EndsOnStdout.of_reaches before)
        (Step.of_step? taken))

omit [DecidableEq Sink] in
/-- A tidy console shows whole lines when no `write` is in progress. -/
theorem Tidy.linesWhole
    (tidy : Tidy kind observed state)
    (returned : Returned kind observed state) :
    LinesWhole kind observed state := by
  intro quiet
  have closed : ∀ thread, (state.phase thread).openLine? = none := by
    intro thread
    have outside := quiet thread
    cases phase : state.phase thread <;>
      simp [phase, Phase.writing, Phase.openLine?] at outside ⊢
  have sameLanes :
      ∀ thread,
        lane thread (endedLines kind observed) =
          lane thread (wroteLines kind observed) := by
    intro thread
    have outside := quiet thread
    rw [returned thread]
    cases phase : state.phase thread <;>
      simp [phase, Phase.writing, Phase.endedLine] at outside ⊢
  obtain ⟨opened, isOpened, text⟩ := tidy
  obtain rfl := isOpened.eq_none closed
  refine ⟨(endedLines kind observed).map Prod.snd, ?_, ?_⟩
  · exact (perm_of_lane_eq sameLanes).map Prod.snd
  · simpa using text

/--
The lines of a single `StdoutSink` are always apart: whoever has one open
holds the mutex that the next one needs.
-/
theorem linesApart_of_single_sink
    {allowed : State Thread Sink → Event Thread Sink → Prop}
    (single :
      ∀ first second,
        kind first = .stdout →
        kind second = .stdout →
        first = second)
    (reached :
      (machine Thread Sink kind calendar).ReachesBy allowed
        observed state)
    (event : Event Thread Sink) :
    LinesApart kind state event := by
  have held := MutexHeld.of_reaches reached
  cases event with
  | advance thread =>
      intro prints other
      cases phase : state.phase thread with
      | printing sink entry tm =>
          simp only [phase, Phase.printsLine, beq_iff_eq] at prints
          cases otherPhase : state.phase other with
          | ending otherSink otherEntry otherTm =>
              have isStdout :=
                EndsOnStdout.of_reaches reached other otherSink
                  otherEntry otherTm otherPhase
              obtain rfl := single sink otherSink prints isStdout
              have mine :=
                held thread sink (by rw [phase]; rfl)
              have theirs :=
                held other sink (by rw [otherPhase]; rfl)
              rw [mine] at theirs
              cases theirs
              rw [phase] at otherPhase
              cases otherPhase
          | _ =>
              rfl
      | _ =>
          simp [phase, Phase.printsLine] at prints
  | write | flush =>
      trivial

/-- With one `StdoutSink` at most the console always shows whole lines. -/
theorem linesWhole_of_single_sink
    (single :
      ∀ first second,
        kind first = .stdout →
        kind second = .stdout →
        first = second)
    (reached :
      (machine Thread Sink kind calendar).Reaches observed state) :
    LinesWhole kind observed state := by
  have apart :
      (machine Thread Sink kind calendar).ReachesBy (LinesApart kind)
        observed state :=
    reached.restrict fun before _ _ =>
      linesApart_of_single_sink single before _
  exact (Tidy.of_reaches apart).linesWhole (.of_reaches reached)

/--
As long as no `StdoutSink` inserts a line while another line waits for its
line feed, the console shows whole lines, one for each complete `write`,
whenever no `write` is in progress.
-/
theorem console_lines_are_whole
    (reached :
      (machine Thread Sink kind calendar).ReachesBy (LinesApart kind)
        observed state) :
    LinesWhole kind observed state :=
  (Tidy.of_reaches reached).linesWhole (.of_reaches reached)

end Steps

/-- An entry that says that the network is up. -/
private def networkUp : LogEntry where
  level := .info
  module := "net"
  message := "up"
  timestamp := 0
  ompThreadId := 0
  threadDump := ""

/-- Two threads have both locked the `mutex_` of their own sinks. -/
private def bothLocked
    {Thread Sink : Type}
    (first second : Thread)
    (left right : Sink) : List (Event Thread Sink) :=
  [.write first left networkUp, .write second right networkUp,
    .advance first, .advance first, .advance first,
    .advance second, .advance second, .advance second]

/--
One `dispatch` to two `StdoutSink`s: both lines come before both line feeds.
-/
theorem two_sinks_garble_the_console :
    ∃ (observed : List (Obs (Fin 2) (Fin 2)))
      (state : State (Fin 2) (Fin 2)),
      (machine (Fin 2) (Fin 2) (fun _ => .stdout)
          Calendar.utc).Reaches observed state ∧
        state.console =
          "00:00:00 [INFO ] [net] [T0]  up00:00:00 [INFO ] [net] [T0]  up\n\n" ∧
        ¬ LinesWhole (fun _ => .stdout) observed state := by
  obtain ⟨observed, state, reached, feature⟩ :=
    (machine (Fin 2) (Fin 2) (fun _ => .stdout)
      Calendar.utc).exists_reaches
      (bothLocked 0 1 0 1 ++
        [.advance 0, .advance 1, .advance 0, .advance 1,
          .advance 0, .advance 1])
      (fun observed state =>
        state.console ==
            "00:00:00 [INFO ] [net] [T0]  up00:00:00 [INFO ] [net] [T0]  up\n\n" &&
          (wroteLines (fun _ => .stdout) observed).map Prod.snd ==
            List.replicate 2 "00:00:00 [INFO ] [net] [T0]  up" &&
          decide (∀ thread, (state.phase thread).writing = false))
      (by decide +kernel)
  simp only [Bool.and_eq_true, beq_iff_eq,
    decide_eq_true_eq] at feature
  obtain ⟨⟨console, wrote⟩, quiet⟩ := feature
  refine ⟨observed, state, reached, console, ?_⟩
  intro whole
  obtain ⟨lines, reordered, text⟩ := whole quiet
  rw [wrote] at reordered
  rw [List.perm_replicate.mp reordered, console] at text
  revert text
  decide +kernel

/-- The same two sinks when one line waits for the other. -/
theorem console_lines_are_whole_of_two_sinks :
    ∃ (observed : List (Obs (Fin 2) (Fin 2)))
      (state : State (Fin 2) (Fin 2)),
      (machine (Fin 2) (Fin 2) (fun _ => .stdout)
          Calendar.utc).ReachesBy (LinesApart fun _ => .stdout)
          observed state ∧
        (wroteLines (fun _ => .stdout) observed).length = 2 ∧
        ∃ lines,
          lines.Perm
              ((wroteLines (fun _ => .stdout) observed).map Prod.snd) ∧
            state.console = consoleText lines := by
  obtain ⟨observed, state, reached, feature⟩ :=
    (machine (Fin 2) (Fin 2) (fun _ => .stdout)
      Calendar.utc).exists_reachesBy (LinesApart fun _ => .stdout)
      (bothLocked 0 1 0 1 ++
        [.advance 0, .advance 0, .advance 1, .advance 0,
          .advance 1, .advance 1])
      (fun observed state =>
        (wroteLines (fun _ => .stdout) observed).length == 2 &&
          decide (∀ thread, (state.phase thread).writing = false))
      (by decide +kernel)
  simp only [Bool.and_eq_true, beq_iff_eq,
    decide_eq_true_eq] at feature
  exact ⟨observed, state, reached, feature.1,
    console_lines_are_whole reached feature.2⟩

end ConcLogger.Sinks
